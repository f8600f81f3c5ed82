import SdbController.Kubernetes.Endpoint

/-!
# Which names Kubernetes takes

The rules for names and labels. The name of most objects is a subdomain of RFC 1123, that of a
Service is a label of RFC 1035, and the value of a label has an alphabet of its own. A subdomain is
a label value if it is short enough, and a label of RFC 1035 if it is besides a single label that
begins with a letter.

## Main results

* `IsDnsSubdomain.append_iff` — a subdomain with a suffix
* `IsDnsSubdomain.isLabelValue_iff`, `IsDnsSubdomain.isDns1035Label_iff` — a subdomain as a label
  value, and as the name of a Service
-/

namespace Kubernetes

/-- A DNS label of RFC 1035, which begins with a letter. -/
structure IsDns1035Label (s : String) : Prop extends IsDnsLabel s where
  letter : s.toList.head?.any Char.isLower

/-- A character of a label value. -/
def isLabelChar (c : Char) : Bool := c.isAlphanum || c == '-' || c == '_' || c == '.'

/-- The value of a label: empty, or with an alphanumeric character at both ends. -/
structure IsLabelValue (s : String) : Prop where
  length : s.length ≤ 63
  chars : ∀ c ∈ s.toList, isLabelChar c
  head : ∀ c, s.toList.head? = some c → c.isAlphanum
  last : ∀ c, s.toList.getLast? = some c → c.isAlphanum

/-! ### The last part of a text -/

/-- A text up to its last separator, whatever stands behind it. -/
theorem exists_last_part (sep : Char) (xs : List Char) :
    ∃ pre last init, xs = pre ++ last ∧ sep ∉ last ∧
      ∀ ys, sep ∉ ys → (pre ++ ys).splitOn sep = init ++ [ys] := by
  by_cases hsep : sep ∈ xs
  · obtain ⟨as, bs, hrev, has⟩ := List.eq_append_cons_of_mem (List.mem_reverse.mpr hsep)
    refine ⟨bs.reverse ++ [sep], as.reverse, bs.reverse.splitOn sep, ?_, by simpa using has,
      fun ys hys => ?_⟩
    · rw [← List.reverse_reverse xs, hrev]
      simp
    · rw [List.append_assoc, List.singleton_append, List.splitOn_append_cons_self,
        List.splitOn_eq_singleton hys]
  · exact ⟨[], xs, [], rfl, hsep, fun ys hys => List.splitOn_eq_singleton hys⟩

/-! ### Subdomains -/

/-- A character that a name may begin and end with. -/
def IsEdge (c : Char) : Prop := c.isLower ∨ c.isDigit

theorem IsEdge.isAlphanum {c : Char} (h : IsEdge c) : c.isAlphanum := by
  rcases h with hlower | hdigit
  · have halpha : c.isAlpha := Bool.or_eq_true_iff.mpr (.inr hlower)
    exact Bool.or_eq_true_iff.mpr (.inl halpha)
  · exact Bool.or_eq_true_iff.mpr (.inr hdigit)

theorem isEdge_of_isDnsChar {c : Char} (h : isDnsChar c) (hc : c ≠ '-') : IsEdge c := by
  simp only [isDnsChar, Bool.or_eq_true, beq_iff_eq] at h
  rcases h with (h | h) | h
  · exact .inl h
  · exact .inr h
  · exact absurd h hc

namespace IsDnsSubdomain

variable {s t : String}

theorem head (h : IsDnsSubdomain s) : ∃ c, s.toList.head? = some c ∧ IsEdge c := by
  have hlabels := h.labels
  have hchars := h.chars
  cases hs : s.toList with
  | nil =>
    rw [hs, List.splitOn_nil] at hlabels
    exact absurd rfl (hlabels [] List.mem_cons_self).1
  | cons c cs =>
    rw [hs, List.splitOn_cons_eq_if_modifyHead] at hlabels
    by_cases hdot : c = '.'
    · rw [if_pos (beq_iff_eq.mpr hdot)] at hlabels
      exact absurd rfl (hlabels [] List.mem_cons_self).1
    · rw [if_neg (by simpa using hdot)] at hlabels
      obtain ⟨y, ys, hy⟩ := List.exists_cons_of_ne_nil (List.splitOn_ne_nil '.' cs)
      rw [hy, List.modifyHead_cons] at hlabels
      have hdash : c ≠ '-' := by
        simpa using (hlabels (c :: y) List.mem_cons_self).2.1
      refine ⟨c, rfl, isEdge_of_isDnsChar ?_ hdash⟩
      exact (hchars c (by rw [hs]; exact List.mem_cons_self)).resolve_right hdot

theorem last (h : IsDnsSubdomain s) : ∃ c, s.toList.getLast? = some c ∧ IsEdge c := by
  obtain ⟨pre, last, init, hs, hdot, hsplit⟩ := exists_last_part '.' s.toList
  have hbounded : Bounded last := h.labels last (by rw [hs, hsplit last hdot]; simp)
  obtain ⟨c, hc⟩ : ∃ c, last.getLast? = some c := ⟨_, List.getLast?_eq_some_getLast hbounded.1⟩
  have hmem : c ∈ last := List.mem_of_getLast? hc
  refine ⟨c, by rw [hs, List.getLast?_append, hc]; rfl, isEdge_of_isDnsChar ?_ ?_⟩
  · refine (h.chars c (by rw [hs]; exact List.mem_append_right _ hmem)).resolve_right ?_
    rintro rfl
    exact hdot hmem
  · rintro rfl
    exact hbounded.2.2 hc

/-- **A subdomain with a suffix** is one if it is short enough. -/
theorem append_iff (hs : IsDnsSubdomain s) (ht : ∀ c ∈ t.toList, isDnsChar c)
    (hlast : t.toList ≠ [] ∧ t.toList.getLast? ≠ some '-') :
    IsDnsSubdomain (s ++ t) ↔ s.length + t.length ≤ 253 := by
  rw [← String.length_append]
  refine ⟨fun h => h.length, fun hlength => ⟨hlength, fun c hc => ?_, ?_⟩⟩
  · rw [String.toList_append] at hc
    rcases List.mem_append.mp hc with hc | hc
    · exact hs.chars c hc
    · exact .inl (ht c hc)
  · obtain ⟨pre, last, init, hsplit, hdot, hparts⟩ := exists_last_part '.' s.toList
    have hdot' : '.' ∉ last ++ t.toList := by
      intro hmem
      rcases List.mem_append.mp hmem with hmem | hmem
      · exact hdot hmem
      · exact absurd (ht '.' hmem) (by decide)
    have hlabels := hs.labels
    rw [hsplit, hparts last hdot] at hlabels
    rw [String.toList_append, hsplit, List.append_assoc, hparts _ hdot']
    intro l hl
    rcases List.mem_append.mp hl with hl | hl
    · exact hlabels l (List.mem_append_left _ hl)
    · -- the last label goes on with the suffix
      obtain rfl := List.mem_singleton.mp hl
      have hbounded := hlabels last (List.mem_append_right _ List.mem_cons_self)
      refine ⟨by simp [hlast.1], ?_, ?_⟩
      · rw [List.head?_append_of_ne_nil _ hbounded.1]
        exact hbounded.2.1
      · rw [List.getLast?_append_of_ne_nil _ hlast.1]
        exact hlast.2

/-- **A subdomain as a label value.** -/
theorem isLabelValue_iff (hs : IsDnsSubdomain s) : IsLabelValue s ↔ s.length ≤ 63 := by
  refine ⟨fun h => h.length, fun hlength => ⟨hlength, fun c hc => ?_, fun c hc => ?_,
    fun c hc => ?_⟩⟩
  · rcases hs.chars c hc with hchar | rfl
    · by_cases hdash : c = '-'
      · rw [hdash]
        rfl
      · simp [isLabelChar, (isEdge_of_isDnsChar hchar hdash).isAlphanum]
    · rfl
  · obtain ⟨c', hc', hedge⟩ := hs.head
    obtain rfl := Option.some.inj (hc.symm.trans hc')
    exact hedge.isAlphanum
  · obtain ⟨c', hc', hedge⟩ := hs.last
    obtain rfl := Option.some.inj (hc.symm.trans hc')
    exact hedge.isAlphanum

/-- **A subdomain as the name of a Service.** -/
theorem isDns1035Label_iff (hs : IsDnsSubdomain s) :
    IsDns1035Label s ↔ s.length ≤ 63 ∧ '.' ∉ s.toList ∧ s.toList.head?.any Char.isLower := by
  refine ⟨fun h => ⟨h.length, h.not_mem (by decide), h.letter⟩, ?_⟩
  rintro ⟨hlength, hdot, hletter⟩
  refine ⟨⟨hlength, fun c hc => (hs.chars c hc).resolve_right ?_, ?_⟩, hletter⟩
  · rintro rfl
    exact hdot hc
  · refine hs.labels _ ?_
    rw [List.splitOn_eq_singleton hdot]
    exact List.mem_cons_self

end IsDnsSubdomain

end Kubernetes
