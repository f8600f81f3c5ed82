import Mathlib.Data.Bool.AllAny
import Mathlib.Data.List.FinRange

/-!
# Generated passwords

`generate_secure_password` of the Cluster controller and the inline generator of the User
controller are one loop: draw alphanumerics, then insert four symbols at random byte offsets. The
random choices are a `Draws`, whose fields are the bounds that `sample_iter` and `random_range`
promise.

`String::insert` panics off a character boundary and past the end. `insertAt` is partial in the
same places, and `insertSymbols_isSome` shows that no draws reach them, so `Draws.password` is
total.
-/

namespace SdbController

/-- The bytes of the source's `SYMBOLS`. -/
def symbols : List Char := "!@#$%^&*()-_=+[]\x7b\x7d;:,.?~".toList

/-- `String::insert` at a byte offset; `none` where it panics. -/
def insertAt (ch : Char) : ℕ → List Char → Option (List Char)
  | 0, s => some (ch :: s)
  | _ + 1, [] => none
  | i + 1, c :: s =>
    if c.utf8Size ≤ i + 1 then (insertAt ch (i + 1 - c.utf8Size) s).map (c :: ·) else none

/-- One run's random choices: `n` alphanumerics, and for each of the four rounds an offset below
the length the string has by then and a symbol. -/
structure Draws (n : ℕ) where
  samples : List Char
  position : Fin 4 → ℕ
  symbol : Fin 4 → Fin symbols.length
  samples_length : samples.length = n
  samples_alphanum : ∀ c ∈ samples, c.isAlphanum
  position_lt : ∀ k, position k < max (n + k) 1

/-- The draws that come out the same every time. -/
def Draws.constant (n : ℕ) (ch : Char) (hch : ch.isAlphanum) : Draws n where
  samples := List.replicate n ch
  position := fun _ => 0
  symbol := fun _ => ⟨0, by decide⟩
  samples_length := List.length_replicate
  samples_alphanum := fun c hc => by rwa [List.eq_of_mem_replicate hc]
  position_lt := fun _ => by omega

instance (n : ℕ) : Inhabited (Draws n) := ⟨.constant n 'a' (by decide)⟩

/-- The symbol loop. -/
def Draws.insertSymbols {n : ℕ} (d : Draws n) : Option (List Char) :=
  (List.finRange 4).foldlM (fun s k => insertAt (symbols.get (d.symbol k)) (d.position k) s)
    d.samples

/-! ### The loop never panics -/

/-- `s.len()`, in bytes. -/
def byteLength : List Char → ℕ
  | [] => 0
  | c :: s => c.utf8Size + byteLength s

/-- All characters take one byte, so byte offsets are character offsets. -/
def OneByte (s : List Char) : Prop := ∀ c ∈ s, c.utf8Size = 1

theorem toNat_of_isAlphanum {c : Char} (h : c.isAlphanum) :
    (65 ≤ c.toNat ∧ c.toNat ≤ 90 ∨ 97 ≤ c.toNat ∧ c.toNat ≤ 122) ∨
      48 ≤ c.toNat ∧ c.toNat ≤ 57 := by
  change ((decide (_ ∧ _) || (decide _ && decide _)) || (decide _ && decide _)) = true at h
  simp only [Bool.or_eq_true, Bool.and_eq_true, decide_eq_true_eq, ge_iff_le,
    UInt32.le_iff_toNat_le] at h
  exact h

theorem utf8Size_of_isAlphanum {c : Char} (h : c.isAlphanum) : c.utf8Size = 1 := by
  have hcode := toNat_of_isAlphanum h
  have hle : c.toNat ≤ 127 := by omega
  rw [Char.utf8Size_eq_one_iff]
  exact hle

theorem utf8Size_symbol (k : Fin symbols.length) : (symbols.get k).utf8Size = 1 := by
  revert k
  decide

theorem byteLength_cons (c : Char) (s : List Char) :
    byteLength (c :: s) = c.utf8Size + byteLength s := rfl

theorem OneByte.byteLength_eq {s : List Char} (hs : OneByte s) : byteLength s = s.length := by
  induction s with
  | nil => rfl
  | cons c s ih =>
    have hc : c.utf8Size = 1 := hs c List.mem_cons_self
    rw [byteLength_cons, hc, ih fun a ha => hs a (List.mem_cons_of_mem _ ha), List.length_cons,
      Nat.add_comm]

/-- Inserting behind a string of as many bytes as the offset says. -/
theorem insertAt_append (ch : Char) (pre post : List Char) :
    insertAt ch (byteLength pre) (pre ++ post) = some (pre ++ ch :: post) := by
  induction pre with
  | nil => cases post <;> rfl
  | cons c pre ih =>
    have hpos := c.utf8Size_pos
    obtain ⟨i, hi⟩ : ∃ i, byteLength (c :: pre) = i + 1 :=
      ⟨_, (Nat.succ_pred_eq_of_pos (by rw [byteLength_cons]; omega)).symm⟩
    rw [byteLength_cons] at hi
    rw [byteLength_cons, hi, List.cons_append, insertAt, if_pos (by omega),
      show i + 1 - c.utf8Size = byteLength pre by omega, ih]
    rfl

/-- **Where `String::insert` does not panic**: where a string of `i` bytes comes before. -/
theorem insertAt_eq_some_iff {ch : Char} {i : ℕ} {s t : List Char} :
    insertAt ch i s = some t ↔
      ∃ pre post, s = pre ++ post ∧ byteLength pre = i ∧ t = pre ++ ch :: post := by
  constructor
  · intro h
    induction s generalizing i t with
    | nil =>
      cases i with
      | zero =>
        cases h
        exact ⟨[], [], rfl, rfl, rfl⟩
      | succ i => cases h
    | cons c s ih =>
      cases i with
      | zero =>
        cases h
        exact ⟨[], c :: s, rfl, rfl, rfl⟩
      | succ i =>
        rw [insertAt] at h
        split at h
        · next hle =>
          obtain ⟨u, hu, rfl⟩ := Option.map_eq_some_iff.mp h
          obtain ⟨pre, post, rfl, hpre, rfl⟩ := ih hu
          refine ⟨c :: pre, post, rfl, ?_, rfl⟩
          rw [byteLength_cons]
          omega
        · cases h
  · rintro ⟨pre, post, rfl, rfl, rfl⟩
    exact insertAt_append ch pre post

/-- Inserting adds the character, and nothing else. -/
theorem perm_of_insertAt {ch : Char} {i : ℕ} {s t : List Char} (h : insertAt ch i s = some t) :
    t.Perm (ch :: s) := by
  obtain ⟨pre, post, rfl, -, rfl⟩ := insertAt_eq_some_iff.mp h
  exact List.perm_middle

/-- Inserting within a one-byte string succeeds. -/
theorem exists_insertAt (ch : Char) {i : ℕ} {s : List Char} (hs : OneByte s) (hi : i ≤ s.length) :
    ∃ t, insertAt ch i s = some t := by
  have hpre : OneByte (s.take i) := fun c hc => hs c (List.mem_of_mem_take hc)
  have hlen : byteLength (s.take i) = i := by
    rw [hpre.byteLength_eq, List.length_take, Nat.min_eq_left hi]
  exact ⟨_, insertAt_eq_some_iff.mpr ⟨_, _, (List.take_append_drop i s).symm, hlen, rfl⟩⟩

/-- What is inserted into is a one-byte string again, if the character takes one byte. -/
theorem OneByte.of_insertAt {ch : Char} {i : ℕ} {s t : List Char} (hs : OneByte s)
    (hch : ch.utf8Size = 1) (h : insertAt ch i s = some t) : OneByte t := by
  intro c hc
  rcases List.mem_cons.mp ((perm_of_insertAt h).mem_iff.mp hc) with rfl | hc
  · exact hch
  · exact hs c hc

/-- Rounds `k` onwards succeed on the string that the first `k` rounds leave. -/
theorem foldlM_insertAt_isSome {n : ℕ} (d : Draws n) (ks : List (Fin 4)) {s : List Char}
    (hs : OneByte s) (hlt : ∀ j (hj : j < ks.length), d.position ks[j] ≤ s.length + j) :
    ∃ t, ks.foldlM (fun s k => insertAt (symbols.get (d.symbol k)) (d.position k) s) s = some t ∧
      OneByte t := by
  induction ks generalizing s with
  | nil => exact ⟨s, rfl, hs⟩
  | cons k ks ih =>
    have h0 := hlt 0 (by simp)
    obtain ⟨t, ht⟩ := exists_insertAt (symbols.get (d.symbol k)) hs h0
    have hlen : t.length = s.length + 1 := (perm_of_insertAt ht).length_eq
    obtain ⟨u, hu, hone'⟩ := ih (hs.of_insertAt (utf8Size_symbol _) ht) fun j hj => by
      have := hlt (j + 1) (by simpa using hj)
      rw [hlen]
      simp only [List.getElem_cons_succ] at this
      omega
    refine ⟨u, ?_, hone'⟩
    rw [List.foldlM_cons, show insertAt _ (d.position k) s = some t from ht]
    exact hu

theorem Draws.insertSymbols_isSome {n : ℕ} (d : Draws n) : d.insertSymbols.isSome := by
  have hs : OneByte d.samples := fun c hc => utf8Size_of_isAlphanum (d.samples_alphanum c hc)
  obtain ⟨t, ht, -⟩ := foldlM_insertAt_isSome d (List.finRange 4) hs fun j hj => by
    have := d.position_lt ((List.finRange 4)[j])
    rw [d.samples_length]
    simp only [List.getElem_finRange, Fin.val_cast] at this ⊢
    omega
  rw [insertSymbols, ht]
  rfl

/-- The generated password. -/
def Draws.password {n : ℕ} (d : Draws n) : String :=
  String.ofList (d.insertSymbols.get d.insertSymbols_isSome)

/-! ### What a generated password is made of -/

theorem mem_foldlM_insertAt {n : ℕ} (d : Draws n) (ks : List (Fin 4)) {s t : List Char} {c : Char}
    (h : ks.foldlM (fun s k => insertAt (symbols.get (d.symbol k)) (d.position k) s) s = some t)
    (hc : c ∈ t) : c ∈ symbols ∨ c ∈ s := by
  induction ks generalizing s with
  | nil =>
    cases h
    exact .inr hc
  | cons k ks ih =>
    rw [List.foldlM_cons] at h
    obtain ⟨u, hu, hrest⟩ := Option.bind_eq_some_iff.mp h
    rcases ih hrest with hsymbol | hmem
    · exact .inl hsymbol
    · rcases List.mem_cons.mp ((perm_of_insertAt hu).mem_iff.mp hmem) with rfl | hs
      · exact .inl (List.get_mem _ _)
      · exact .inr hs

/-- A generated password is made of alphanumerics and the symbols. -/
theorem Draws.mem_password {n : ℕ} (d : Draws n) {c : Char} (hc : c ∈ d.password.toList) :
    c.isAlphanum ∨ c ∈ symbols := by
  rw [password, String.toList_ofList] at hc
  rcases mem_foldlM_insertAt d (List.finRange 4) (Option.some_get d.insertSymbols_isSome).symm hc
    with hsymbol | hmem
  · exact .inr hsymbol
  · exact .inl (d.samples_alphanum c hmem)

/-- Characters that open, close or escape a literal. -/
def delimiters : List Char := ['\'', '"', '\x60', '\\']

/-- Both kinds of characters are visible ASCII, and no delimiters. -/
theorem visible_of_mem {c : Char} (h : c.isAlphanum ∨ c ∈ symbols) :
    (32 < c.toNat ∧ c.toNat < 127) ∧ c ∉ delimiters := by
  rcases h with halnum | hmem
  · have hcode := toNat_of_isAlphanum halnum
    refine ⟨by omega, fun hdelimiter => ?_⟩
    have hdelimiters : ∀ c ∈ delimiters, ¬ c.isAlphanum :=
      List.all_iff_forall_prop.mp (by decide)
    exact hdelimiters c hdelimiter halnum
  · have hsymbols : ∀ c ∈ symbols, (32 < c.toNat ∧ c.toNat < 127) ∧ c ∉ delimiters :=
      List.all_iff_forall_prop.mp (by decide)
    exact hsymbols c hmem

/-- The number of alphanumerics `generate_secure_password(len)` draws: the four symbols make up
the rest of a length of at least 32. -/
def secureSamples (len : ℕ) : ℕ := max len 32 - 4

end SdbController
