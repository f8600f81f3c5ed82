import Mathlib.Data.List.FinRange
import Mathlib.Data.List.GetD
import SdbController.Decoding
import SdbController.Login

/-!
# What the generators return

`generate_secure_password` and the inline generator of `User::reconcile`, given what the random
number generator returns. They draw characters, and for each of four rounds an offset into the
string as it then is and an index into `SYMBOLS`. Every step that can panic is partial here: the
subtraction, the lookup in `SYMBOLS` and `String::insert`.

One invariant, `Mixed`, goes through the rounds. The string consists of the drawn characters in
their order and the symbols inserted so far, all of one byte, so the next offset is at a character
boundary.

## Main results

* `exists_draws_iff` — the reconcilers draw the passwords that the generators return
* `generators_wellFormed` — the generators return, and what
-/

namespace SdbController

open Interaction Program Lexing

/-- Subtraction in `usize`; `none` where it underflows. -/
def checkedSub (a b : ℕ) : Option ℕ := if b ≤ a then some (a - b) else none

/-- The rounds of the symbol loop, each with its offset and its index into `SYMBOLS`. -/
def insertRounds : List (ℕ × ℕ) → List Char → Option (List Char)
  | [], s => some s
  | (idx, sym) :: rounds, s =>
    symbols[sym]?.bind fun ch => (insertAt ch idx s).bind (insertRounds rounds)

/-- What both generators do: draw `n` alphanumerics, then run the symbol loop. -/
def generate (n : ℕ) (sample : ℕ → Char) (rounds : Fin 4 → ℕ × ℕ) : Option String :=
  (insertRounds (List.ofFn rounds) ((List.range n).map sample)).map String.ofList

/-- `generate_secure_password`. -/
def generateSecurePassword (len : ℕ) (sample : ℕ → Char) (rounds : Fin 4 → ℕ × ℕ) : Option String :=
  (checkedSub (max len 32) 4).bind fun n => generate n sample rounds

/-- The inline generator of `User::reconcile`. -/
def User.generatePassword (sample : ℕ → Char) (rounds : Fin 4 → ℕ × ℕ) : Option String :=
  generate 20 sample rounds

/-- What is drawn lies in the ranges `0..s.len().max(1)` and `0..SYMBOLS.len()`, for the string `s`
of the round. -/
def InRange : List (ℕ × ℕ) → List Char → Prop
  | [], _ => True
  | (idx, sym) :: rounds, s => idx < max (byteLength s) 1 ∧ sym < symbols.length ∧
    ∀ ch t, symbols[sym]? = some ch → insertAt ch idx s = some t → InRange rounds t

/-- The symbols that are drawn. -/
def drawnSymbols (rounds : List (ℕ × ℕ)) : List Char := rounds.filterMap fun r => symbols[r.2]?

/-! ### The invariant of the loop -/

/-- The string consists of the samples in their order, and of symbols. -/
structure Mixed (samples inserted s : List Char) : Prop where
  filter_samples : s.filter (· ∉ symbols) = samples
  filter_symbols : (s.filter (· ∈ symbols)).Perm inserted
  length_eq : s.length = samples.length + inserted.length
  alphanum_or_mem : ∀ c ∈ s, c.isAlphanum ∨ c ∈ symbols

theorem not_isAlphanum_of_mem {c : Char} (h : c ∈ symbols) : ¬ c.isAlphanum := by
  have hsymbols : ∀ c ∈ symbols, ¬ c.isAlphanum := List.all_iff_forall_prop.mp (by decide)
  exact hsymbols c h

theorem utf8Size_of_mem {c : Char} (h : c ∈ symbols) : c.utf8Size = 1 := by
  obtain ⟨k, rfl⟩ := List.get_of_mem h
  exact utf8Size_symbol k

theorem Mixed.oneByte {samples inserted s : List Char} (h : Mixed samples inserted s) :
    OneByte s := fun c hc =>
  (h.alphanum_or_mem c hc).elim utf8Size_of_isAlphanum utf8Size_of_mem

/-- The samples, before the first round. -/
theorem mixed_samples {samples : List Char} (h : ∀ c ∈ samples, c.isAlphanum) :
    Mixed samples [] samples where
  filter_samples := List.filter_eq_self.mpr fun c hc =>
    decide_eq_true fun hmem => not_isAlphanum_of_mem hmem (h c hc)
  filter_symbols := by
    rw [List.filter_eq_nil_iff.mpr fun c hc hmem =>
      not_isAlphanum_of_mem (of_decide_eq_true hmem) (h c hc)]
  length_eq := rfl
  alphanum_or_mem c hc := .inl (h c hc)

/-- One round. -/
theorem Mixed.insertAt {samples inserted s t : List Char} {ch : Char} {i : ℕ}
    (h : Mixed samples inserted s) (hch : ch ∈ symbols) (ht : insertAt ch i s = some t) :
    Mixed samples (inserted ++ [ch]) t := by
  have hperm := perm_of_insertAt ht
  obtain ⟨pre, post, rfl, -, rfl⟩ := insertAt_eq_some_iff.mp ht
  refine ⟨?_, ?_, ?_, fun c hc => ?_⟩
  · have hfilter : (ch :: post).filter (· ∉ symbols) = post.filter (· ∉ symbols) :=
      List.filter_cons_of_neg fun hnot => of_decide_eq_true hnot hch
    rw [← h.filter_samples, List.filter_append, List.filter_append, hfilter]
  · have hfilter : (ch :: (pre ++ post)).filter (· ∈ symbols) =
        ch :: (pre ++ post).filter (· ∈ symbols) :=
      List.filter_cons_of_pos (decide_eq_true hch)
    refine (hperm.filter _).trans ?_
    rw [hfilter]
    exact (h.filter_symbols.cons ch).trans (List.perm_append_singleton ch inserted).symm
  · rw [hperm.length_eq, List.length_cons, h.length_eq, List.length_append, List.length_singleton,
      Nat.add_assoc]
  · rcases List.mem_cons.mp (hperm.mem_iff.mp hc) with rfl | hc
    · exact .inr hch
    · exact h.alphanum_or_mem c hc

/-- **The loop.** No round panics, and the invariant holds behind the last one. -/
theorem Mixed.insertRounds {samples inserted s : List Char} {rounds : List (ℕ × ℕ)}
    (h : Mixed samples inserted s) (hrounds : InRange rounds s) :
    ∃ t, insertRounds rounds s = some t ∧ Mixed samples (inserted ++ drawnSymbols rounds) t ∧
      (drawnSymbols rounds).length = rounds.length := by
  induction rounds generalizing inserted s with
  | nil => exact ⟨s, rfl, by rwa [drawnSymbols, List.filterMap_nil, List.append_nil], rfl⟩
  | cons round rounds ih =>
    obtain ⟨hidx, hsym, hrest⟩ := hrounds
    have hch : symbols[round.2]? = some symbols[round.2] := List.getElem?_eq_getElem hsym
    rw [h.oneByte.byteLength_eq] at hidx
    obtain ⟨u, hu⟩ := exists_insertAt symbols[round.2] h.oneByte (i := round.1) (by omega)
    obtain ⟨t, ht, hmixed, hlen⟩ :=
      ih (h.insertAt (List.getElem_mem hsym) hu) (hrest _ u hch hu)
    have hdrawn : drawnSymbols (round :: rounds) = symbols[round.2] :: drawnSymbols rounds :=
      List.filterMap_cons_some hch
    refine ⟨t, ?_, ?_, ?_⟩
    · rw [SdbController.insertRounds, hch, Option.bind_some, hu, Option.bind_some, ht]
    · rwa [hdrawn, List.append_cons]
    · rw [hdrawn, List.length_cons, hlen, List.length_cons]

/-! ### The ranges -/

/-- The ranges, worked out: each round makes the string longer by one byte. -/
theorem inRange_iff {rounds : List (ℕ × ℕ)} {s : List Char} (hs : OneByte s) :
    InRange rounds s ↔ ∀ j (hj : j < rounds.length),
      rounds[j].1 < max (s.length + j) 1 ∧ rounds[j].2 < symbols.length := by
  induction rounds generalizing s with
  | nil => exact iff_of_true trivial fun j hj => absurd hj (Nat.not_lt_zero j)
  | cons round rounds ih =>
    rw [InRange, hs.byteLength_eq]
    -- what is left of the rounds, on the string one longer
    have hrest {ch : Char} {t : List Char} (hch : ch ∈ symbols)
        (ht : insertAt ch round.1 s = some t) :
        InRange rounds t ↔ ∀ j (hj : j < rounds.length),
          rounds[j].1 < max (s.length + (j + 1)) 1 ∧ rounds[j].2 < symbols.length := by
      have hlen : t.length = s.length + 1 := (perm_of_insertAt ht).length_eq
      rw [ih (hs.of_insertAt (utf8Size_of_mem hch) ht), hlen]
      simp only [Nat.add_assoc, Nat.add_comm 1]
    constructor
    · rintro ⟨hidx, hsym, hrounds⟩ j hj
      cases j with
      | zero => exact ⟨hidx, hsym⟩
      | succ j =>
        obtain ⟨t, ht⟩ := exists_insertAt symbols[round.2] hs (i := round.1) (by omega)
        have hmem : symbols[round.2] ∈ symbols := List.getElem_mem hsym
        have hin := hrounds _ t (List.getElem?_eq_getElem hsym) ht
        exact (hrest hmem ht).mp hin j (Nat.lt_of_succ_lt_succ hj)
    · intro h
      obtain ⟨hidx, hsym⟩ := h 0 (Nat.zero_lt_succ _)
      refine ⟨hidx, hsym, fun ch t hch ht => ?_⟩
      exact (hrest (List.mem_of_getElem? hch) ht).mpr fun j hj => h (j + 1) (Nat.succ_lt_succ hj)

theorem inRange_ofFn_iff {rounds : Fin 4 → ℕ × ℕ} {s : List Char} (hs : OneByte s) :
    InRange (List.ofFn rounds) s ↔
      ∀ k, (rounds k).1 < max (s.length + k) 1 ∧ (rounds k).2 < symbols.length := by
  rw [inRange_iff hs]
  simp only [List.getElem_ofFn, List.length_ofFn]
  exact ⟨fun h k => h k k.isLt, fun h j hj => h ⟨j, hj⟩⟩

/-! ### The password in the texts -/

/-- A generated password: the samples in their order, mixed with the drawn symbols. It is visible
ASCII without delimiters, doubling its quotes leaves it as it is, and the text that bootstraps the
root user with it reads as intended, whether a backslash or a doubled quote is the escape. -/
structure WellFormed (samples drawn : List Char) (password : String) : Prop where
  filter_samples : password.toList.filter (· ∉ symbols) = samples
  filter_symbols : (password.toList.filter (· ∈ symbols)).Perm drawn
  length_eq : password.length = samples.length + drawn.length
  visible : ∀ c ∈ password.toList, 32 < c.toNat ∧ c.toNat < 127
  not_mem_delimiters : ∀ c ∈ password.toList, c ∉ delimiters
  double_eq : ∀ q ∈ delimiters, double q password = password
  reads (c : Cluster) (e : Escapes) :
    Reads e (c.bootstrapRequest c.name "root" password).body.text [.defineRootUser "root" password]
  readsDoubled (c : Cluster) (e : Escapes) :
    ReadsDoubled e (c.bootstrapRequest c.name "root" password).body.text
      [.defineRootUser "root" password]

theorem double_eq_self {q : Char} {s : String} (h : q ∉ s.toList) : double q s = s := by
  rw [← String.toList_inj, toList_double, stuff_eq_self h]

/-- The text of `bootstrap_root_user` for the user `root`. -/
def rootTemplate : Template :=
  .hole "DEFINE USER root ON ROOT PASSWORD ".toList '\'' <| .done " ROLES OWNER;".toList

/-- A password without quotes need not be escaped. -/
theorem write_rootTemplate {password : String} (h : '\'' ∉ password.toList) :
    rootTemplate.write [password.toList] =
      some (Sql.defineRootUser "root" password).text.toList := by
  refine congrArg some ?_
  rw [stuff_eq_self h]
  unfold Sql.text
  simp only [String.toList_append, String.reduceToList, List.cons_append, List.nil_append]

theorem readsDoubled_defineRootUser (e : Escapes) {password : String}
    (h : '\'' ∉ password.toList) :
    ReadsDoubled e (Sql.defineRootUser "root" password).text
      [.defineRootUser "root" password] := by
  have hseparated : rootTemplate.Separated := by decide
  have hopens : rootTemplate.Opens (surrealql e) := ⟨rfl, trivial⟩
  rw [ReadsDoubled, Template.lexDoubled_of_write hseparated hopens (write_rootTemplate h)]
  rfl

/-- What the invariant of the loop is for. -/
theorem Mixed.wellFormed {samples drawn s : List Char} (h : Mixed samples drawn s) :
    WellFormed samples drawn (String.ofList s) := by
  have hvisible {c : Char} (hc : c ∈ (String.ofList s).toList) :=
    visible_of_mem (h.alphanum_or_mem c (by rwa [String.toList_ofList] at hc))
  have hnot {q : Char} (hq : q ∈ delimiters) : q ∉ (String.ofList s).toList :=
    fun hmem => (hvisible hmem).2 hq
  have hquote : '\'' ∉ (String.ofList s).toList := hnot (by decide)
  have hbackslash : '\\' ∉ (String.ofList s).toList := hnot (by decide)
  refine ⟨?_, ?_, ?_, fun c hc => (hvisible hc).1, fun c hc => (hvisible hc).2,
    fun q hq => double_eq_self (hnot hq), fun c e => ?_, fun c e => ?_⟩
  · rw [String.toList_ofList, h.filter_samples]
  · rw [String.toList_ofList]
    exact h.filter_symbols
  · rw [String.length_ofList, h.length_eq]
  · exact (reads_defineRootUser_iff e "root" _).mpr ⟨by decide, hquote, hbackslash⟩
  · exact readsDoubled_defineRootUser e hquote

theorem isAlphanum_of_mem_samples {n : ℕ} {sample : ℕ → Char}
    (hsample : ∀ i, (sample i).isAlphanum) : ∀ c ∈ (List.range n).map sample, c.isAlphanum := by
  intro c hc
  obtain ⟨i, -, rfl⟩ := List.mem_map.mp hc
  exact hsample i

/-- A generator returns, within the ranges it draws from. -/
theorem exists_generate {n : ℕ} {sample : ℕ → Char} {rounds : Fin 4 → ℕ × ℕ}
    (hsample : ∀ i, (sample i).isAlphanum)
    (hrounds : InRange (List.ofFn rounds) ((List.range n).map sample)) :
    ∃ password, generate n sample rounds = some password ∧ password.length = n + 4 ∧
      (password.toList.filter (· ∈ symbols)).length = 4 ∧
      WellFormed ((List.range n).map sample) (drawnSymbols (List.ofFn rounds)) password := by
  have hall := isAlphanum_of_mem_samples (n := n) hsample
  obtain ⟨s, hs, hmixed, hdrawn⟩ := (mixed_samples hall).insertRounds hrounds
  rw [List.length_ofFn] at hdrawn
  have hwell := hmixed.wellFormed
  refine ⟨_, by rw [generate, hs, Option.map_some], ?_, ?_, hwell⟩
  · rw [hwell.length_eq, List.nil_append, hdrawn, List.length_map, List.length_range]
  · rw [hwell.filter_symbols.length_eq, List.nil_append, hdrawn]

/-- The subtraction does not underflow. -/
theorem generateSecurePassword_eq (len : ℕ) {sample : ℕ → Char} {rounds : Fin 4 → ℕ × ℕ} :
    generateSecurePassword len sample rounds = generate (secureSamples len) sample rounds := by
  have hle : 4 ≤ max len 32 := by omega
  rw [generateSecurePassword, checkedSub, if_pos hle, Option.bind_some, secureSamples]

/-- **Both generators are total and safe.** For every length and within the ranges drawn from, no
subtraction underflows, no index is out of range and no offset off a character boundary. What is
returned has the requested length, but 32 at least, or 24 characters for a User; four of them are
symbols; and it can be embedded as it is. -/
theorem generators_wellFormed (sample : ℕ → Char) (rounds : Fin 4 → ℕ × ℕ)
    (hsample : ∀ i, (sample i).isAlphanum) :
    (∀ len, InRange (List.ofFn rounds) ((List.range (max len 32 - 4)).map sample) →
      ∃ password, generateSecurePassword len sample rounds = some password ∧
        password.length = max len 32 ∧ (password.toList.filter (· ∈ symbols)).length = 4 ∧
        WellFormed ((List.range (max len 32 - 4)).map sample) (drawnSymbols (List.ofFn rounds))
          password) ∧
    (InRange (List.ofFn rounds) ((List.range 20).map sample) →
      ∃ password, User.generatePassword sample rounds = some password ∧
        password.length = 24 ∧ (password.toList.filter (· ∈ symbols)).length = 4 ∧
        WellFormed ((List.range 20).map sample) (drawnSymbols (List.ofFn rounds)) password) := by
  refine ⟨fun len hrounds => ?_, fun hrounds => exists_generate hsample hrounds⟩
  obtain ⟨password, hpassword, hlen, hsymbols, hwell⟩ := exists_generate hsample hrounds
  exact ⟨password, (generateSecurePassword_eq len).trans hpassword, by omega, hsymbols, hwell⟩

theorem generators_wellFormed_sample :
    (∃ password, generateSecurePassword 8 (fun _ => 'a') (fun _ => (27, 3)) = some password ∧
      password.length = 32) ∧
    ∃ password, User.generatePassword (fun _ => 'a') (fun _ => (0, 3)) = some password ∧
      password.length = 24 := by
  have hone (n : ℕ) : OneByte ((List.range n).map fun _ => 'a') := fun c hc =>
    utf8Size_of_isAlphanum (isAlphanum_of_mem_samples (fun _ => by decide) c hc)
  constructor
  · obtain ⟨password, hpassword, hlen, -⟩ :=
      (generators_wellFormed (fun _ => 'a') (fun _ => (27, 3)) fun _ => by decide).1 8
        ((inRange_ofFn_iff (hone 28)).mpr (by decide))
    exact ⟨password, hpassword, hlen⟩
  · obtain ⟨password, hpassword, hlen, -⟩ :=
      (generators_wellFormed (fun _ => 'a') (fun _ => (0, 3)) fun _ => by decide).2
        ((inRange_ofFn_iff (hone 20)).mpr (by decide))
    exact ⟨password, hpassword, hlen⟩

/-! ### What the reconcilers draw -/

theorem insertRounds_map {n : ℕ} (d : Draws n) (ks : List (Fin 4)) (s : List Char) :
    insertRounds (ks.map fun k => (d.position k, (d.symbol k).val)) s =
      ks.foldlM (fun s k => insertAt (symbols.get (d.symbol k)) (d.position k) s) s := by
  induction ks generalizing s with
  | nil => rfl
  | cons k ks ih =>
    rw [List.map_cons, insertRounds, List.getElem?_eq_getElem (d.symbol k).isLt, Option.bind_some,
      List.foldlM_cons]
    refine Option.bind_congr fun t _ => ih t

/-- The generator returns the password of the draws. -/
theorem generate_eq_password {n : ℕ} (d : Draws n) {sample : ℕ → Char}
    (hsample : (List.range n).map sample = d.samples) :
    generate n sample (fun k => (d.position k, (d.symbol k).val)) = some d.password := by
  rw [generate, hsample, List.ofFn_eq_map, insertRounds_map]
  exact congrArg (Option.map String.ofList) (Option.some_get d.insertSymbols_isSome).symm

/-- A generator returns this password for `n` samples, within the ranges it draws from. -/
def IsGenerated (n : ℕ) (password : String) : Prop :=
  ∃ sample rounds, (∀ i, (sample i).isAlphanum) ∧
    InRange (List.ofFn rounds) ((List.range n).map sample) ∧
    generate n sample rounds = some password

/-- **What the reconcilers draw**: the passwords that the generators return. -/
theorem exists_draws_iff {n : ℕ} {password : String} :
    (∃ d : Draws n, d.password = password) ↔ IsGenerated n password := by
  constructor
  · rintro ⟨d, rfl⟩
    have hsamples : (List.range n).map (fun i => d.samples.getD i 'a') = d.samples :=
      List.ext_getElem (by simp [d.samples_length]) fun i _ hi => by simp [hi]
    have halnum (i : ℕ) : (d.samples.getD i 'a').isAlphanum := by
      by_cases hi : i < d.samples.length
      · rw [List.getD_eq_getElem _ _ hi]
        exact d.samples_alphanum _ (List.getElem_mem hi)
      · rw [List.getD_eq_default _ _ (by omega)]
        decide
    refine ⟨_, _, halnum, ?_, generate_eq_password d hsamples⟩
    rw [hsamples, inRange_ofFn_iff fun c hc => utf8Size_of_isAlphanum (d.samples_alphanum c hc),
      d.samples_length]
    exact fun k => ⟨d.position_lt k, (d.symbol k).isLt⟩
  · rintro ⟨sample, rounds, hsample, hrounds, hgenerate⟩
    have hall := isAlphanum_of_mem_samples (n := n) hsample
    rw [inRange_ofFn_iff fun c hc => utf8Size_of_isAlphanum (hall c hc), List.length_map,
      List.length_range] at hrounds
    obtain ⟨d, hsamples, hdraws⟩ : ∃ d : Draws n, (List.range n).map sample = d.samples ∧
        (fun k => (d.position k, (d.symbol k).val)) = rounds :=
      ⟨{ samples := (List.range n).map sample
         position := fun k => (rounds k).1
         symbol := fun k => ⟨(rounds k).2, (hrounds k).2⟩
         samples_length := by rw [List.length_map, List.length_range]
         samples_alphanum := hall
         position_lt := fun k => (hrounds k).1 }, rfl, rfl⟩
    have hpassword := generate_eq_password d hsamples
    rw [hdraws, hgenerate] at hpassword
    exact ⟨d, (Option.some.inj hpassword).symm⟩

end SdbController
