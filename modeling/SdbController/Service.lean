import Mathlib.Data.List.Basic
import SdbController.Reconciler

/-!
# The two clients for SurrealDB

`service.rs`: a client either goes through the API server's service proxy (`kube`) or straight to
the Service (`reqwest`). `post` starts a request from a URL, `body` finishes it and `send` turns
the outcome into a verdict. The proxy variant takes the URL apart to find the service it names; the
direct variant hands the URL on and hears about a bad one from `build`.

The URL parser and base64 are libraries, so they are parameters, collected in `Externals`.

The two transports judge a response differently: kube's `request_text` makes an error of every 4xx
and 5xx, reqwest's `execute` is content with any response.
-/

namespace SdbController

open Interaction Program

/-- What `url::Url::parse` says about a URL. -/
structure Url where
  host : Option String
  port : Option ℕ
  path : String
deriving DecidableEq, Repr

/-- The libraries under the clients. -/
structure Externals where
  urlParse : String → Except String Url
  base64 : String → String

/-- `service::Client`. -/
inductive Client
  | kube
  | reqwest
deriving DecidableEq, Repr

/-- `service::Builder`. -/
structure Builder where
  client : Client
  method : String
  uri : String
  headers : List (String × String) := []
deriving DecidableEq, Repr

/-- `service::Request`. -/
structure Request where
  client : Client
  request : HttpRequest
deriving DecidableEq

/-! ### Finding the service in a URL -/

/-- The closure of `post` over the shared iterator: it takes labels until it has a service and a
namespace and leaves the rest. `none` is its `panic!`. -/
def takeLabels : Option String → Option String → List String →
    Option (Option String × Option String × List String)
  | svc, ns, [] => some (svc, ns, [])
  | none, ns, p :: iter => takeLabels (some p) ns iter
  | some svc, none, p :: iter => some (some svc, some p, iter)
  | some _, some _, _ :: _ => none

theorem takeLabels_start (labels : List String) :
    takeLabels none none labels = some (labels[0]?, labels[1]?, labels.drop 2) := by
  match labels with
  | [] => rfl
  | [_] => rfl
  | _ :: _ :: _ => rfl

/-- `host.split(".")`. -/
def hostLabels (host : String) : List String := (host.toList.splitOn '.').map String.ofList

/-- Service, namespace and remaining labels of a host. -/
def serviceLabels (host : String) : Option String × Option String × List String :=
  (takeLabels none none (hostLabels host)).get (by rw [takeLabels_start]; rfl)

theorem serviceLabels_eq (host : String) :
    serviceLabels host = ((hostLabels host)[0]?, (hostLabels host)[1]?, (hostLabels host).drop 2) :=
  Option.get_of_eq_some _ (takeLabels_start _)

/-! ### Building and sending a request -/

namespace Client

/-- `Client::post`. -/
def post (libs : Externals) (client : Client) (url : String) : Except Error Builder :=
  match client with
  | kube =>
    match libs.urlParse url with
    | .error text => .error (.urlParseError text)
    | .ok u =>
      match u.host with
      | none => .error (.serviceRequestError "missing host in url")
      | some host =>
        let invalid := Error.serviceRequestError
          (host ++ " is not valid host, expected <svc>.<ns>.svc.<any-cluster-domain>:<port>")
        match serviceLabels host, u.port with
        | (some svc, some ns, iter), some port =>
          if iter.length > 2 then
            .ok { client := kube, method := "POST",
                  uri := "/api/v1/namespaces/" ++ ns ++ "/services/" ++ svc ++ ":" ++
                    toString port ++ "/proxy" ++ u.path }
          else .error invalid
        | _, _ => .error invalid
  | reqwest => .ok { client := reqwest, method := "POST", uri := url }

end Client

/-- `Builder::header`. -/
def Builder.header (b : Builder) (key value : String) : Builder :=
  { b with headers := b.headers ++ [(key, value)] }

/-- `Builder::body`. The direct client builds its request here and rejects a bad URL, in the words
of the parser. That the other one can build its request is taken for granted. -/
def Builder.body (libs : Externals) (b : Builder) (sql : Sql) : Except Error Request :=
  let request : HttpRequest :=
    { method := b.method, uri := b.uri, headers := b.headers, body := sql }
  match b.client with
  | .kube => .ok ⟨.kube, request⟩
  | .reqwest =>
    match libs.urlParse b.uri with
    | .error text => .error (.reqwestError text)
    | .ok _ => .ok ⟨.reqwest, request⟩

/-- `kube::Client::request_text`: responses 4xx and 5xx are errors. -/
def requestText : HttpOutcome → Except KubeError Unit
  | .failed text => .error (.other text)
  | .response status text =>
    if 400 ≤ status.code ∧ status.code < 600 then .error (.api status.code text) else .ok ()

theorem requestText_eq_ok_iff {r : HttpOutcome} : requestText r = .ok () ↔ r.IsSuccess := by
  cases r with
  | failed text => simp [requestText, HttpOutcome.IsSuccess]
  | response status text =>
    have := status.valid
    simp only [requestText, HttpOutcome.IsSuccess]
    split <;> simp <;> omega

/-- `reqwest::Client::execute`: any response is a success. -/
def execute : HttpOutcome → Except String Unit
  | .failed text => .error text
  | .response _ _ => .ok ()

namespace Client

/-- The verdict of `send` on what the transport got. -/
def verdict : Client → HttpOutcome → Except Error Unit
  | kube, r => (requestText r).mapError .kubeError
  | reqwest, r => (execute r).mapError .reqwestError

/-- `Client::send`. -/
def send (client : Client) (request : Request) : Reconciler Unit :=
  if client = request.client then do
    let r ← Reconciler.http request.request
    Reconciler.ofExcept (client.verdict r)
  else throw (.serviceRequestError "invalid request type for client")

end Client

/-- `basic_auth_header` of the Database and of the User controller. -/
def basicAuthHeader (libs : Externals) (user pass : String) : String :=
  "Basic " ++ libs.base64 (user ++ ":" ++ pass)

/-- The address that the Database and User controllers post to. -/
def sqlUrl (clusterNs clusterName : String) : String :=
  "http://" ++ clusterName ++ "-surrealdb." ++ clusterNs ++ ".svc.cluster.local:8000/sql"

/-- The request that `ensure_surreal_namespace`, `ensure_surreal_database` and `provision_user`
all build around their statement. -/
def sqlRequest (libs : Externals) (client : Client) (clusterNs clusterName user pass : String)
    (sql : Sql) : Except Error Request := do
  let builder ← client.post libs (sqlUrl clusterNs clusterName)
  (((builder.header "accept" "application/json").header "content-type" "text/plain").header
    "authorization" (basicAuthHeader libs user pass)).body libs sql

/-- Build the request and send it. -/
def sendSql (libs : Externals) (client : Client) (clusterNs clusterName user pass : String)
    (sql : Sql) : Reconciler Unit := do
  let request ← Reconciler.ofExcept (sqlRequest libs client clusterNs clusterName user pass sql)
  client.send request

section Requests

variable {libs : Externals} {client : Client} {clusterNs clusterName user pass : String} {sql : Sql}

/-- A request is built for the client that will send it, around its statement. -/
theorem sqlRequest_eq_ok {request : Request}
    (h : sqlRequest libs client clusterNs clusterName user pass sql = .ok request) :
    request.client = client ∧ request.request.body = sql := by
  rw [sqlRequest] at h
  cases hpost : client.post libs (sqlUrl clusterNs clusterName) with
  | error e =>
    rw [hpost] at h
    cases h
  | ok b =>
    have hb : b.client = client := by
      unfold Client.post at hpost
      split at hpost
      · split at hpost
        · cases hpost
        · split at hpost
          · cases hpost
          · dsimp only at hpost
            split at hpost
            · split at hpost <;> cases hpost
              rfl
            · cases hpost
      · cases hpost
        rfl
    rw [hpost] at h
    change Builder.body libs _ sql = _ at h
    rw [Builder.body] at h
    simp only [Builder.header, hb] at h
    cases client with
    | kube =>
      cases h
      exact ⟨rfl, rfl⟩
    | reqwest =>
      dsimp only at h
      split at h
      · cases h
      · cases h
        exact ⟨rfl, rfl⟩

/-- Whether a request can be built does not depend on the statement. -/
theorem sqlRequest_isOk (sql' : Sql) {request : Request}
    (h : sqlRequest libs client clusterNs clusterName user pass sql = .ok request) :
    ∃ request', sqlRequest libs client clusterNs clusterName user pass sql' = .ok request' := by
  rw [sqlRequest] at h ⊢
  cases hpost : client.post libs (sqlUrl clusterNs clusterName) with
  | error e =>
    rw [hpost] at h
    cases h
  | ok b =>
    rw [hpost] at h
    change Builder.body libs _ sql = _ at h
    change ∃ request', Builder.body libs _ sql' = .ok request'
    unfold Builder.body at h ⊢
    dsimp only at h ⊢
    split at h
    · exact ⟨_, rfl⟩
    · split at h
      · cases h
      · exact ⟨_, rfl⟩

@[simp] theorem meets_sendSql {G : History Reply → Call → Prop} {h : History Reply}
    {Q : History Reply → Except Error Unit → Prop} :
    Meets G Q h (sendSql libs client clusterNs clusterName user pass sql).run ↔
      (∀ request, sqlRequest libs client clusterNs clusterName user pass sql = .ok request →
        G h (.http request.request) ∧
          ∀ r : HttpOutcome, Q (⟨.http request.request, r⟩ :: h) (client.verdict r)) ∧
      ∀ e, sqlRequest libs client clusterNs clusterName user pass sql = .error e →
        Q h (.error e) := by
  rw [sendSql, meets_except_bind, Reconciler.meets_ofExcept]
  cases hreq : sqlRequest libs client clusterNs clusterName user pass sql with
  | error e => simp
  | ok request =>
    simp only [Client.send, if_pos (sqlRequest_eq_ok hreq).1.symm, meets_except_bind,
      Reconciler.meets_http, Reconciler.meets_ofExcept, Except.ok.injEq, forall_eq',
      reduceCtorEq, false_implies, implies_true, and_true]

/-- Sending a statement makes one call at most. -/
theorem calls_sendSql {P : Call → Prop}
    (hP : ∀ request, sqlRequest libs client clusterNs clusterName user pass sql = .ok request →
      P (.http request.request)) :
    Reconciler.Calls P (sendSql libs client clusterNs clusterName user pass sql) :=
  fun _ => meets_sendSql.mpr ⟨fun request h => ⟨hP request h, fun _ => trivial⟩, fun _ _ => trivial⟩

@[simp] theorem completes_sendSql {S : Type} {serve : (c : Call) → S → Reply c → S → Prop}
    {s s' : S} {x : Except Error Unit} :
    Completes serve (sendSql libs client clusterNs clusterName user pass sql).run s x s' ↔
      (∃ request, sqlRequest libs client clusterNs clusterName user pass sql = .ok request ∧
        ∃ r : HttpOutcome, serve (.http request.request) s r s' ∧ x = client.verdict r) ∨
      ∃ e, sqlRequest libs client clusterNs clusterName user pass sql = .error e ∧
        x = .error e ∧ s' = s := by
  rw [sendSql, completes_except_bind]
  simp only [Reconciler.completes_ofExcept]
  cases hreq : sqlRequest libs client clusterNs clusterName user pass sql with
  | error e =>
    constructor
    · rintro ⟨_, _, ⟨rfl, rfl⟩, rfl, rfl⟩
      exact .inr ⟨e, rfl, rfl, rfl⟩
    · rintro (⟨_, heq, -⟩ | ⟨_, heq, rfl, rfl⟩)
      · cases heq
      · cases heq
        exact ⟨_, _, ⟨rfl, rfl⟩, rfl, rfl⟩
  | ok request =>
    have hsend : Completes serve (client.send request).run s x s' ↔
        ∃ r : HttpOutcome, serve (.http request.request) s r s' ∧ x = client.verdict r := by
      rw [Client.send, if_pos (sqlRequest_eq_ok hreq).1.symm, completes_except_bind]
      simp only [Reconciler.completes_http]
      constructor
      · rintro ⟨_, _, ⟨r, hr, rfl⟩, rfl, rfl⟩
        exact ⟨r, hr, rfl⟩
      · rintro ⟨r, hr, rfl⟩
        exact ⟨_, _, ⟨r, hr, rfl⟩, rfl, rfl⟩
    constructor
    · rintro ⟨_, _, ⟨rfl, rfl⟩, h⟩
      exact .inl ⟨request, rfl, hsend.mp h⟩
    · rintro (⟨_, heq, h⟩ | ⟨_, heq, -⟩)
      · cases heq
        exact ⟨_, _, ⟨rfl, rfl⟩, hsend.mpr h⟩
      · cases heq

end Requests

/-! ### Addresses in the cluster -/

/-- The URL parser takes the address of a Cluster apart as it should. -/
def Externals.Parses (libs : Externals) (clusterNs clusterName : String) : Prop :=
  libs.urlParse (sqlUrl clusterNs clusterName) =
    .ok ⟨some (clusterName ++ "-surrealdb." ++ clusterNs ++ ".svc.cluster.local"), some 8000,
      "/sql"⟩

/-- Such a host has a label for the service, one for the namespace, and enough others. -/
theorem five_le_length_hostLabels (clusterNs clusterName : String) :
    5 ≤ (hostLabels
      (clusterName ++ "-surrealdb." ++ clusterNs ++ ".svc.cluster.local")).length := by
  have hpos (l : List Char) : 1 ≤ (l.splitOnP (· == '.')).length :=
    List.length_pos_iff.mpr (List.splitOnP_ne_nil _ _)
  have hchars : (clusterName ++ "-surrealdb." ++ clusterNs ++ ".svc.cluster.local").toList =
      (clusterName.toList ++ "-surrealdb".toList) ++ '.' :: (clusterNs.toList ++
        '.' :: ("svc".toList ++ '.' :: ("cluster".toList ++ '.' :: "local".toList))) := by
    simp
  rw [hostLabels, List.length_map, hchars, List.splitOn_eq_splitOnP]
  iterate 4 rw [List.splitOnP_append_cons _ _ rfl, List.length_append]
  have h₁ := hpos (clusterName.toList ++ "-surrealdb".toList)
  have h₂ := hpos clusterNs.toList
  have h₃ := hpos "svc".toList
  have h₄ := hpos "cluster".toList
  have h₅ := hpos "local".toList
  omega

/-- A request to an address that parses can be built. -/
theorem sqlRequest_of_parses {libs : Externals} {clusterNs clusterName : String}
    (h : libs.Parses clusterNs clusterName) (client : Client) (user pass : String) (sql : Sql) :
    ∃ request, sqlRequest libs client clusterNs clusterName user pass sql = .ok request := by
  cases client with
  | kube =>
    have hlen := five_le_length_hostLabels clusterNs clusterName
    rw [sqlRequest, Client.post]
    rw [h]
    dsimp only
    rw [serviceLabels_eq, List.getElem?_eq_getElem (by omega), List.getElem?_eq_getElem (by omega)]
    dsimp only
    rw [if_pos (by rw [List.length_drop]; omega)]
    exact ⟨_, rfl⟩
  | reqwest =>
    have hbody (b : Builder) (hb : b.client = .reqwest ∧ b.uri = sqlUrl clusterNs clusterName) :
        ∃ request, b.body libs sql = .ok request := by
      rw [Builder.body]
      rw [hb.1, hb.2]
      dsimp only
      rw [h]
      exact ⟨_, rfl⟩
    let start : Builder :=
      { client := .reqwest, method := "POST", uri := sqlUrl clusterNs clusterName }
    exact hbody (((start.header "accept" "application/json").header "content-type"
      "text/plain").header "authorization" (basicAuthHeader libs user pass)) ⟨rfl, rfl⟩

/-- A Secret value read as text: `String::from_utf8(…).unwrap_or_default()`. -/
def fromUtf8OrDefault (b : ByteArray) : String := (String.fromUTF8? b).getD ""

theorem fromUTF8?_toUTF8 (s : String) : String.fromUTF8? s.toUTF8 = some s :=
  dif_pos s.isValidUTF8

theorem fromUtf8OrDefault_toUTF8 (s : String) : fromUtf8OrDefault s.toUTF8 = s := by
  rw [fromUtf8OrDefault, fromUTF8?_toUTF8, Option.getD_some]

end SdbController
