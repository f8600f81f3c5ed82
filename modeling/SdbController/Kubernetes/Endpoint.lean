import Mathlib.Data.List.Basic

/-!
# Addresses in a Kubernetes cluster

A port of a Service can be addressed from outside, by a path of the API server's service proxy, and
from inside, by the DNS name of the Service. `proxyEndpoint` and `dnsEndpoint` read the two.

A name may hold dots, so a DNS name is read from the right: behind the zone come `svc` and the
namespace, which is one label, and what is left is the Service.

## Main results

* `proxyEndpoint_proxyPath`, `dnsEndpoint_dnsName` — both readings find the endpoint that was
  written, if its parts do not hold the separators
-/

namespace Kubernetes

/-- A port of a Service. -/
structure Endpoint where
  ns : String
  service : String
  port : ℕ
deriving DecidableEq, Repr

/-! ### Names -/

/-- A character of a DNS label. -/
def isDnsChar (c : Char) : Bool := c.isLower || c.isDigit || c == '-'

/-- Not empty, and dashes inside only. -/
def Bounded (l : List Char) : Prop := l ≠ [] ∧ l.head? ≠ some '-' ∧ l.getLast? ≠ some '-'

instance : DecidablePred Bounded := fun _ => inferInstanceAs (Decidable (_ ∧ _))

/-- A DNS label of RFC 1123. -/
structure IsDnsLabel (s : String) : Prop where
  length : s.length ≤ 63
  chars : ∀ c ∈ s.toList, isDnsChar c
  bounded : Bounded s.toList

/-- A DNS subdomain of RFC 1123: labels with dots between them. -/
structure IsDnsSubdomain (s : String) : Prop where
  length : s.length ≤ 253
  chars : ∀ c ∈ s.toList, isDnsChar c ∨ c = '.'
  labels : ∀ l ∈ s.toList.splitOn '.', Bounded l

theorem IsDnsLabel.not_mem {s : String} (h : IsDnsLabel s) {c : Char} (hc : isDnsChar c = false) :
    c ∉ s.toList := by
  intro hmem
  rw [h.chars c hmem] at hc
  cases hc

theorem IsDnsSubdomain.not_mem {s : String} (h : IsDnsSubdomain s) {c : Char}
    (hc : isDnsChar c = false) (hdot : c ≠ '.') : c ∉ s.toList := by
  intro hmem
  rcases h.chars c hmem with hchar | heq
  · rw [hchar] at hc
    cases hc
  · exact hdot heq

/-! ### Reading a text between separators -/

/-- The parts of a text hold no separator, and nothing the text does not hold. -/
theorem mem_splitOn {sep : Char} {xs l : List Char} (hl : l ∈ xs.splitOn sep) :
    sep ∉ l ∧ ∀ c ∈ l, c ∈ xs := by
  induction xs generalizing l with
  | nil =>
    rw [List.splitOn_nil, List.mem_singleton] at hl
    subst hl
    exact ⟨List.not_mem_nil, fun _ h => h⟩
  | cons x xs ih =>
    rw [List.splitOn_cons_eq_if_modifyHead] at hl
    split at hl
    · rcases List.mem_cons.mp hl with rfl | hl
      · exact ⟨List.not_mem_nil, fun _ h => absurd h List.not_mem_nil⟩
      · exact ⟨(ih hl).1, fun c hc => List.mem_cons_of_mem _ ((ih hl).2 c hc)⟩
    · next hx =>
      cases hparts : xs.splitOn sep with
      | nil => exact absurd hparts (List.splitOn_ne_nil _ _)
      | cons y ys =>
        rw [hparts, List.modifyHead_cons] at hl
        rcases List.mem_cons.mp hl with rfl | hl
        · have hy := ih (l := y) (by rw [hparts]; exact List.mem_cons_self)
          refine ⟨fun hmem => ?_, fun c hc => ?_⟩
          · rcases List.mem_cons.mp hmem with rfl | hmem
            · exact hx (beq_self_eq_true _)
            · exact hy.1 hmem
          · rcases List.mem_cons.mp hc with rfl | hc
            · exact List.mem_cons_self
            · exact List.mem_cons_of_mem _ (hy.2 c hc)
        · have hy := ih (l := l) (by rw [hparts]; exact List.mem_cons_of_mem _ hl)
          exact ⟨hy.1, fun c hc => List.mem_cons_of_mem _ (hy.2 c hc)⟩

/-- A decimal number. -/
def readDecimal (s : List Char) : Option ℕ :=
  if s ≠ [] ∧ s.all Char.isDigit then some (Nat.ofDigitChars 10 s 0) else none

theorem readDecimal_toString (n : ℕ) : readDecimal (toString n).toList = some n := by
  rw [Nat.toString_eq_repr, Nat.toList_repr, readDecimal, if_pos,
    Nat.ofDigitChars_toDigits (by decide) (by decide)]
  refine ⟨Nat.toDigits_ne_nil, List.all_eq_true.mpr fun c hc => ?_⟩
  exact Nat.isDigit_of_mem_toDigits (by decide) (by decide) hc

theorem not_mem_toString {c : Char} (hc : c.isDigit = false) (n : ℕ) :
    c ∉ (toString n).toList := by
  intro hmem
  rw [Nat.toString_eq_repr, Nat.toList_repr] at hmem
  rw [Nat.isDigit_of_mem_toDigits (by decide) (by decide) hmem] at hc
  cases hc

/-! ### The two readings -/

/-- What the service proxy of the API server forwards a path to. -/
def proxyEndpoint (path : String) : Option Endpoint :=
  match path.toList.splitOn '/' with
  | root :: api :: version :: namespaces :: ns :: services :: service :: proxy :: _ =>
    if [root, api, version, namespaces, services, proxy].map String.ofList =
        ["", "api", "v1", "namespaces", "services", "proxy"] then
      match service.splitOn ':' with
      | [name, port] =>
        (readDecimal port).map fun p => ⟨String.ofList ns, String.ofList name, p⟩
      | _ => none
    else none
  | _ => none

/-- What a host names, in the zone `cluster.local`. -/
def dnsEndpoint (host : String) (port : ℕ) : Option Endpoint :=
  match (host.toList.splitOn '.').reverse with
  | top :: zone :: svc :: ns :: service =>
    if [svc, zone, top].map String.ofList = ["svc", "cluster", "local"] ∧ service ≠ [] then
      some ⟨String.ofList ns, String.ofList (['.'].intercalate service.reverse), port⟩
    else none
  | _ => none

namespace Endpoint

variable (e : Endpoint)

def proxyPath : String :=
  "/api/v1/namespaces/" ++ e.ns ++ "/services/" ++ e.service ++ ":" ++ toString e.port ++ "/proxy"

def dnsName : String := e.service ++ "." ++ e.ns ++ ".svc.cluster.local"

theorem proxyEndpoint_proxyPath (hns : '/' ∉ e.ns.toList)
    (hservice : ∀ c ∈ e.service.toList, c ≠ '/' ∧ c ≠ ':') (rest : String) :
    proxyEndpoint (e.proxyPath ++ "/" ++ rest) = some e := by
  have hport : '/' ∉ (toString e.port).toList := not_mem_toString (by decide) _
  have hslash : '/' ∉ e.service.toList ++ ':' :: (toString e.port).toList := by
    simp only [List.mem_append, List.mem_cons, not_or]
    exact ⟨fun h => (hservice _ h).1 rfl, by decide, hport⟩
  have hcolon : ':' ∉ e.service.toList := fun h => (hservice _ h).2 rfl
  have hchars : (e.proxyPath ++ "/" ++ rest).toList =
      [] ++ '/' :: ("api".toList ++ '/' :: ("v1".toList ++ '/' :: ("namespaces".toList ++ '/' ::
        (e.ns.toList ++ '/' :: ("services".toList ++ '/' ::
          ((e.service.toList ++ ':' :: (toString e.port).toList) ++ '/' ::
            ("proxy".toList ++ '/' :: rest.toList))))))) := by
    unfold proxyPath
    generalize toString e.port = port
    simp only [String.toList_append, String.reduceToList, List.cons_append, List.nil_append,
      List.append_assoc]
  rw [proxyEndpoint, hchars]
  iterate 4 rw [List.splitOn_append_cons_self_of_not_mem (by decide)]
  rw [List.splitOn_append_cons_self_of_not_mem hns,
    List.splitOn_append_cons_self_of_not_mem (by decide),
    List.splitOn_append_cons_self_of_not_mem hslash,
    List.splitOn_append_cons_self_of_not_mem (by decide)]
  dsimp only
  rw [if_pos (by simp), List.splitOn_append_cons_self_of_not_mem hcolon,
    List.splitOn_eq_singleton (not_mem_toString (by decide) _)]
  dsimp only
  rw [readDecimal_toString, Option.map_some, String.ofList_toList, String.ofList_toList]

theorem dnsEndpoint_dnsName (hns : '.' ∉ e.ns.toList) : dnsEndpoint e.dnsName e.port = some e := by
  have hchars : e.dnsName.toList = e.service.toList ++ '.' :: (e.ns.toList ++ '.' ::
      ("svc".toList ++ '.' :: ("cluster".toList ++ '.' :: "local".toList))) := by
    simp [dnsName]
  rw [dnsEndpoint, hchars, List.splitOn_append_cons_self,
    List.splitOn_append_cons_self_of_not_mem hns,
    List.splitOn_append_cons_self_of_not_mem (by decide : '.' ∉ "svc".toList),
    List.splitOn_append_cons_self_of_not_mem (by decide : '.' ∉ "cluster".toList),
    List.splitOn_eq_singleton (by decide : '.' ∉ "local".toList), List.reverse_append]
  simp only [List.reverse_cons, List.reverse_nil, List.nil_append, List.cons_append]
  rw [if_pos ⟨by simp, by simp⟩, List.reverse_reverse, List.intercalate_splitOn,
    String.ofList_toList, String.ofList_toList]

end Endpoint

end Kubernetes
