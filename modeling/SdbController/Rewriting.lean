import SdbController.Service

/-!
# Which URLs the proxy client takes

`Client.post` says in its error what it expects of a host, `<svc>.<ns>.svc.<any-cluster-domain>`
with a port. What it does is to take the first two labels and to count the others: three of them
are enough, two are not. So a cluster domain of one label is turned away, and hosts that have
nothing in common with the expected form but the number of their labels are let through.

## Main results

* `post_rewritten`, `post_refused` — what the client does, by the number of labels
* `postsAsDocumented_iff` — the URLs that are treated as the error text says
* `short_domain_refused` — one URL of the form that is refused, and one not of the form that is
  rewritten
-/

namespace SdbController

/-- The expected form of a host: four labels or more, the third of them `svc`, none empty. -/
def IsServiceHost (host svc ns : String) : Prop :=
  ∃ domain, hostLabels host = svc :: ns :: "svc" :: domain ∧ domain ≠ [] ∧ "" ∉ hostLabels host

/-- A parsed URL of the expected form. -/
def Url.Names (u : Url) (svc ns : String) (port : ℕ) : Prop :=
  ∃ host, u.host = some host ∧ u.port = some port ∧ IsServiceHost host svc ns

/-- Where the service proxy of the API server has a URL. -/
def proxyUri (u : Url) (svc ns : String) (port : ℕ) : String :=
  "/api/v1/namespaces/" ++ ns ++ "/services/" ++ svc ++ ":" ++ toString port ++ "/proxy" ++ u.path

/-- `post` treats a URL as its error text says: without a panic, URLs of the expected form are
rewritten, and others are refused. -/
structure PostsAsDocumented (libs : Externals) (url : String) (u : Url) : Prop where
  safe : ∀ host, u.host = some host → (takeLabels none none (hostLabels host)).isSome
  rewrites : ∀ svc ns port, u.Names svc ns port → ∃ b, Client.kube.post libs url = .ok b ∧
    b.method = "POST" ∧ b.uri = proxyUri u svc ns port
  refuses : (¬ ∃ svc ns port, u.Names svc ns port) →
    ∃ text, Client.kube.post libs url = .error (.serviceRequestError text)

/-! ### The labels of a host -/

/-- The third label is `svc`, and none is empty. -/
def InService (labels : List String) : Prop := labels[2]? = some "svc" ∧ "" ∉ labels

instance : DecidablePred InService := fun _ => inferInstanceAs (Decidable (_ ∧ _))

theorem exists_isServiceHost_iff {host : String} : (∃ svc ns, IsServiceHost host svc ns) ↔
    4 ≤ (hostLabels host).length ∧ InService (hostLabels host) := by
  constructor
  · rintro ⟨svc, ns, domain, hlabels, hdomain, hempty⟩
    refine ⟨?_, by rw [hlabels]; rfl, hempty⟩
    have := List.length_pos_iff.mpr hdomain
    rw [hlabels]
    simp only [List.length_cons]
    omega
  · rintro ⟨hlength, hthird, hempty⟩
    match hlabels : hostLabels host with
    | [] | [_] | [_, _] | [_, _, _] =>
      rw [hlabels] at hlength
      simp at hlength
    | svc :: ns :: third :: d :: domain =>
      rw [hlabels] at hthird
      obtain rfl : third = "svc" := Option.some.inj hthird
      exact ⟨svc, ns, d :: domain, hlabels, List.cons_ne_nil _ _, hempty⟩

section Post

variable {libs : Externals} {url : String} {u : Url}

/-- What the client makes of a host with two labels or more, and a port. -/
theorem post_of_labels (hparse : libs.urlParse url = .ok u) {host svc ns : String} {port : ℕ}
    {rest : List String} (hhost : u.host = some host) (hport : u.port = some port)
    (hlabels : hostLabels host = svc :: ns :: rest) :
    Client.kube.post libs url = if rest.length > 2 then
        .ok { client := .kube, method := "POST", uri := proxyUri u svc ns port }
      else .error (.serviceRequestError
        (host ++ " is not valid host, expected <svc>.<ns>.svc.<any-cluster-domain>:<port>")) := by
  rw [Client.post, hparse]
  dsimp only
  rw [hhost]
  dsimp only
  rw [serviceLabels_eq, hlabels, hport]
  rfl

/-- Five labels and a port are rewritten. -/
theorem post_rewritten (hparse : libs.urlParse url = .ok u) {host : String} {port : ℕ}
    (hhost : u.host = some host) (hport : u.port = some port)
    (hlength : 5 ≤ (hostLabels host).length) :
    ∃ svc ns rest b, hostLabels host = svc :: ns :: rest ∧ Client.kube.post libs url = .ok b ∧
      b.method = "POST" ∧ b.uri = proxyUri u svc ns port := by
  match hlabels : hostLabels host with
  | [] | [_] =>
    rw [hlabels] at hlength
    simp at hlength
  | svc :: ns :: rest =>
    have hrest : rest.length > 2 := by
      rw [hlabels, List.length_cons, List.length_cons] at hlength
      omega
    have hpost := post_of_labels hparse hhost hport hlabels
    rw [if_pos hrest] at hpost
    exact ⟨svc, ns, rest, _, rfl, hpost, rfl, rfl⟩

/-- Without a second label there is no namespace. -/
theorem post_refused_of_none (hparse : libs.urlParse url = .ok u) {host : String}
    (hhost : u.host = some host) (hnone : (hostLabels host)[1]? = none ∨ u.port = none) :
    ∃ text, Client.kube.post libs url = .error (.serviceRequestError text) := by
  rw [Client.post, hparse]
  dsimp only
  rw [hhost]
  dsimp only
  rw [serviceLabels_eq]
  cases (hostLabels host)[0]? with
  | none => exact ⟨_, rfl⟩
  | some svc =>
    rcases hnone with hns | hport
    · rw [hns]
      exact ⟨_, rfl⟩
    · rw [hport]
      cases (hostLabels host)[1]? with
      | none => exact ⟨_, rfl⟩
      | some ns => exact ⟨_, rfl⟩

/-- Everything else is refused. -/
theorem post_refused (hparse : libs.urlParse url = .ok u)
    (hfew : ∀ host port, u.host = some host → u.port = some port →
      (hostLabels host).length < 5) :
    ∃ text, Client.kube.post libs url = .error (.serviceRequestError text) := by
  cases hhost : u.host with
  | none =>
    rw [Client.post, hparse]
    dsimp only
    rw [hhost]
    exact ⟨_, rfl⟩
  | some host =>
    cases hport : u.port with
    | none => exact post_refused_of_none hparse hhost (.inr hport)
    | some port =>
      have hlength := hfew host port hhost hport
      rcases hlabels : hostLabels host with _ | ⟨svc, _ | ⟨ns, rest⟩⟩
      · exact post_refused_of_none hparse hhost (.inl (by rw [hlabels]; rfl))
      · exact post_refused_of_none hparse hhost (.inl (by rw [hlabels]; rfl))
      · have hrest : ¬ rest.length > 2 := by
          rw [hlabels, List.length_cons, List.length_cons] at hlength
          omega
        have hpost := post_of_labels hparse hhost hport hlabels
        rw [if_neg hrest] at hpost
        exact ⟨_, hpost⟩

end Post

/-- With a port, the host has so few labels that it cannot be of the expected form, or four and is
not of that form, or more and is. -/
def Url.InOrder (u : Url) : Prop :=
  ∀ host port, u.host = some host → u.port = some port →
    (hostLabels host).length ≤ 3 ∨
    ((hostLabels host).length = 4 ∧ ¬ InService (hostLabels host)) ∨
    (5 ≤ (hostLabels host).length ∧ InService (hostLabels host))

/-- **Which URLs are treated as the error text says.** -/
theorem postsAsDocumented_iff {libs : Externals} {url : String} {u : Url}
    (hparse : libs.urlParse url = .ok u) : PostsAsDocumented libs url u ↔ u.InOrder := by
  constructor
  · intro h host port hhost hport
    by_cases hlength : 5 ≤ (hostLabels host).length
    · -- it is rewritten, so it has to be of the form
      refine .inr (.inr ⟨hlength, ?_⟩)
      obtain ⟨-, -, -, b, -, hpost, -⟩ := post_rewritten hparse hhost hport hlength
      by_contra hno
      obtain ⟨text, htext⟩ := h.refuses (by
        rintro ⟨svc, ns, port', host', hhost', -, hform⟩
        obtain rfl := Option.some.inj (hhost.symm.trans hhost')
        exact hno (exists_isServiceHost_iff.mp ⟨svc, ns, hform⟩).2)
      rw [hpost] at htext
      cases htext
    · -- it is refused, so it must not be
      by_cases hfour : (hostLabels host).length = 4
      · refine .inr (.inl ⟨hfour, fun hin => ?_⟩)
        obtain ⟨svc, ns, hform⟩ := exists_isServiceHost_iff.mpr ⟨hfour.ge, hin⟩
        obtain ⟨b, hb, -⟩ := h.rewrites svc ns port ⟨host, hhost, hport, hform⟩
        obtain ⟨text, htext⟩ := post_refused hparse fun host' port' hhost' _ => by
          obtain rfl := Option.some.inj (hhost.symm.trans hhost')
          omega
        rw [hb] at htext
        cases htext
      · exact .inl (by omega)
  · intro h
    refine ⟨fun host _ => by rw [takeLabels_start]; rfl, ?_, fun hno => ?_⟩
    · rintro svc ns port ⟨host, hhost, hport, hform⟩
      obtain ⟨hlength, hin⟩ := exists_isServiceHost_iff.mp ⟨svc, ns, hform⟩
      have hfive : 5 ≤ (hostLabels host).length := by
        rcases h host port hhost hport with hthree | ⟨-, hnot⟩ | ⟨hfive, -⟩
        · omega
        · exact absurd hin hnot
        · exact hfive
      obtain ⟨svc', ns', rest, b, hlabels, hpost, hmethod, huri⟩ :=
        post_rewritten hparse hhost hport hfive
      obtain ⟨domain, hlabels', -⟩ := hform
      rw [hlabels] at hlabels'
      obtain ⟨rfl, htail⟩ := List.cons.inj hlabels'
      obtain ⟨rfl, -⟩ := List.cons.inj htail
      exact ⟨b, hpost, hmethod, huri⟩
    · refine post_refused hparse fun host port hhost hport => ?_
      rcases h host port hhost hport with hthree | ⟨hfour, -⟩ | ⟨hfive, hin⟩
      · omega
      · omega
      · obtain ⟨svc, ns, hform⟩ := exists_isServiceHost_iff.mpr ⟨by omega, hin⟩
        exact absurd ⟨svc, ns, port, host, hhost, hport, hform⟩ hno

/-- Libraries that parse every URL as the given one. -/
def parsedAs (u : Url) : Externals where
  urlParse _ := .ok u
  base64 s := s

/-- The address of a Cluster is of the form. -/
theorem postsAsDocumented_cluster :
    PostsAsDocumented (parsedAs ⟨some "db-surrealdb.prod.svc.cluster.local", some 8000, "/sql"⟩)
      "http://db-surrealdb.prod.svc.cluster.local:8000/sql"
      ⟨some "db-surrealdb.prod.svc.cluster.local", some 8000, "/sql"⟩ := by
  refine (postsAsDocumented_iff rfl).mpr fun host port hhost _ => ?_
  cases hhost
  exact .inr (.inr (by decide))

/-- A cluster domain of one label is refused, and a host without a label `svc` is rewritten. -/
theorem short_domain_refused :
    ¬ PostsAsDocumented (parsedAs ⟨some "db.prod.svc.local", some 8000, "/sql"⟩)
        "http://db.prod.svc.local:8000/sql" ⟨some "db.prod.svc.local", some 8000, "/sql"⟩ ∧
      ¬ PostsAsDocumented (parsedAs ⟨some "a.b.c.d.e", some 8000, "/sql"⟩)
        "http://a.b.c.d.e:8000/sql" ⟨some "a.b.c.d.e", some 8000, "/sql"⟩ := by
  constructor
  · intro h
    obtain ⟨b, hb, -⟩ := h.rewrites "db" "prod" 8000
      ⟨_, rfl, rfl, ["local"], by decide, by decide, by decide⟩
    cases hb
  · intro h
    obtain ⟨text, htext⟩ := h.refuses (by
      rintro ⟨svc, ns, port, host, hhost, -, hform⟩
      cases hhost
      exact absurd (exists_isServiceHost_iff.mp ⟨svc, ns, hform⟩).2 (by decide))
    cases htext

end SdbController
