import Mathlib.Data.Bool.AllAny
import Mathlib.Data.List.TakeWhile
import SdbController.Injection
import SdbController.Transport

/-!
# The root user and those who log in as it

A root Secret is used twice. The Cluster controller writes its user and password into the text that
defines the root user, the two other controllers write them into an `Authorization` header. They
log in as the user that was defined if SurrealDB reads the same pair from both.

The user name stands unquoted in the text, so it has to be an identifier; the password stands in
quotes, without escapes. The header is split at its first colon, which no identifier contains.

Base64 and its inverse are parameters. What is assumed of them is that they are inverse on the
credentials at hand, and base64's alphabet.

## Main results

* `basicCredentials_basicAuthHeader_iff` — which credentials are read back from the header
* `definesLogin_iff` — which root Secrets define the user that the controllers log in as
* `definesLogin_rootSecret` — those that the Cluster controller generates do
-/

namespace SdbController

open Interaction Program Lexing

/-! ### The header -/

/-- `HeaderValue::from_str`, which takes visible ASCII. `none` is where the `unwrap` panics. -/
def headerValue (s : String) : Option String :=
  if s.toList.all fun c => (32 ≤ c.toNat && c.toNat < 127) || c == '\t' then some s else none

/-- The alphabet of base64, with its padding. -/
def isBase64 (c : Char) : Bool := c.isAlphanum || c == '+' || c == '/' || c == '='

/-- Base64 does its work on `s`. -/
structure Externals.Encodes (libs : Externals) (decode : String → Option String) (s : String) :
    Prop where
  decode_base64 : decode (libs.base64 s) = some s
  isBase64_of_mem : ∀ c ∈ (libs.base64 s).toList, isBase64 c

/-- The two sides of the first colon. -/
def splitColon (s : String) : Option (String × String) :=
  match s.toList.dropWhile (· ≠ ':') with
  | [] => none
  | _ :: pass => some (String.ofList (s.toList.takeWhile (· ≠ ':')), String.ofList pass)

/-- A header read as Basic credentials. -/
def basicCredentials (decode : String → Option String) (header : String) :
    Option (String × String) :=
  if "Basic ".toList.isPrefixOf header.toList then
    (decode (String.ofList (header.toList.drop 6))).bind splitColon
  else none

theorem splitColon_append_iff (user pass : String) :
    splitColon (user ++ ":" ++ pass) = some (user, pass) ↔ ':' ∉ user.toList := by
  have htext : (user ++ ":" ++ pass).toList = user.toList ++ ':' :: pass.toList := by
    simp
  rw [splitColon, htext]
  constructor
  · intro h hmem
    split at h
    · cases h
    · have huser := congrArg (String.toList ∘ Prod.fst) (Option.some.inj h)
      rw [Function.comp_apply, Function.comp_apply, String.toList_ofList] at huser
      rw [← huser] at hmem
      simpa using List.mem_takeWhile_imp hmem
  · intro h
    have hall : ∀ c ∈ user.toList, (c ≠ ':' : Bool) := by
      intro c hc
      have hne : c ≠ ':' := fun heq => h (heq ▸ hc)
      exact decide_eq_true hne
    rw [List.dropWhile_append_of_pos hall, List.takeWhile_append_of_pos hall]
    simp

theorem visible_of_isBase64 {c : Char} (h : isBase64 c) : 32 ≤ c.toNat ∧ c.toNat < 127 := by
  simp only [isBase64, Bool.or_eq_true, beq_iff_eq] at h
  rcases h with ((h | rfl) | rfl) | rfl
  · have hcode := toNat_of_isAlphanum h
    omega
  all_goals decide

section Header

variable {libs : Externals} {decode : String → Option String} {user pass : String}

/-- The header is built: the `unwrap` does not panic. -/
theorem headerValue_basicAuthHeader (h : libs.Encodes decode (user ++ ":" ++ pass)) :
    headerValue (basicAuthHeader libs user pass) = some (basicAuthHeader libs user pass) := by
  refine if_pos (List.all_eq_true.mpr fun c hc => ?_)
  rw [basicAuthHeader, String.toList_append, List.mem_append] at hc
  have hvisible : 32 ≤ c.toNat ∧ c.toNat < 127 := by
    have hfixed : ∀ c ∈ "Basic ".toList, 32 ≤ c.toNat ∧ c.toNat < 127 :=
      List.all_iff_forall_prop.mp (by decide)
    rcases hc with hc | hc
    · exact hfixed c hc
    · exact visible_of_isBase64 (h.isBase64_of_mem c hc)
  simp [hvisible]

/-- **What is read from the header**: the pair it was built from, unless the user contains a
colon. -/
theorem basicCredentials_basicAuthHeader_iff (h : libs.Encodes decode (user ++ ":" ++ pass)) :
    basicCredentials decode (basicAuthHeader libs user pass) = some (user, pass) ↔
      ':' ∉ user.toList := by
  have htext : (basicAuthHeader libs user pass).toList =
      "Basic ".toList ++ (libs.base64 (user ++ ":" ++ pass)).toList := by
    rw [basicAuthHeader, String.toList_append]
  have hdrop : (basicAuthHeader libs user pass).toList.drop 6 =
      (libs.base64 (user ++ ":" ++ pass)).toList := by
    rw [htext]
    simp only [String.reduceToList]
    rfl
  have hprefix : "Basic ".toList.isPrefixOf (basicAuthHeader libs user pass).toList := by
    rw [htext, List.isPrefixOf_iff_prefix]
    exact List.prefix_append _ _
  rw [basicCredentials, if_pos hprefix, hdrop, String.ofList_toList, h.decode_base64,
    Option.bind_some]
  exact splitColon_append_iff user pass

end Header

/-! ### The root user -/

/-- The text of `bootstrap_root_user` for the Secret defines the root user with this name and
password and nothing else, and the header for it is built and read as the same pair. -/
def DefinesLogin (e : Escapes) (libs : Externals) (decode : String → Option String) (c : Cluster)
    (sec : Secret) (user pass : String) : Prop :=
  ∃ u p, sec.credentials = some (u, p) ∧
    Reads e (c.bootstrapRequest c.name u p).body.text [.defineRootUser user pass] ∧
    ∃ header, headerValue (basicAuthHeader libs u p) = some header ∧
      basicCredentials decode header = some (user, pass)

theorem credentials_of_lookup {sec : Secret} {user pass : String}
    (huser : sec.data.lookup "user" = some user.toUTF8)
    (hpass : sec.data.lookup "password" = some pass.toUTF8) :
    sec.credentials = some (user, pass) := by
  rw [Secret.credentials, huser, hpass]
  dsimp only
  rw [fromUtf8OrDefault_toUTF8, fromUtf8OrDefault_toUTF8]

/-- An identifier contains no colon. -/
theorem IsIdentifier.colon_not_mem {s : String} (h : IsIdentifier s) : ':' ∉ s.toList :=
  fun hmem => absurd (h.2 ':' hmem) (by decide)

/-- **When the controllers log in as the root user**: if and only if its name is an identifier and
its password contains neither a quote nor a backslash. -/
theorem definesLogin_iff (e : Escapes) {libs : Externals} {decode : String → Option String}
    (c : Cluster) {sec : Secret} {user pass : String}
    (huser : sec.data.lookup "user" = some user.toUTF8)
    (hpass : sec.data.lookup "password" = some pass.toUTF8)
    (hlibs : libs.Encodes decode (user ++ ":" ++ pass)) :
    DefinesLogin e libs decode c sec user pass ↔ IsIdentifier user ∧ Unescaped '\'' pass := by
  have hcred := credentials_of_lookup huser hpass
  constructor
  · rintro ⟨u, p, hup, hreads, -⟩
    obtain ⟨rfl, rfl⟩ := Prod.mk.inj (Option.some.inj (hup.symm.trans hcred))
    exact (reads_defineRootUser_iff e u p).mp hreads
  · intro h
    refine ⟨user, pass, hcred, (reads_defineRootUser_iff e user pass).mpr h, _,
      headerValue_basicAuthHeader hlibs, ?_⟩
    exact (basicCredentials_basicAuthHeader_iff hlibs).mpr h.1.colon_not_mem

/-- The inverse of `sampleExternals`' base64, where it is one. -/
def sampleDecode (s : String) : Option String :=
  if s = "cm9vdDpzZWNyZXQ=" then some "root:secret" else none

theorem sampleExternals_encodes : sampleExternals.Encodes sampleDecode "root:secret" where
  decode_base64 := if_pos rfl
  isBase64_of_mem := show ∀ c ∈ "cm9vdDpzZWNyZXQ=".toList, isBase64 c from
    List.all_iff_forall_prop.mp (by decide)

theorem definesLogin_iff_sample :
    DefinesLogin .verbatim sampleExternals sampleDecode sampleCluster
        (givenSecret "prod" "root").stored "root" "secret" ↔
      IsIdentifier "root" ∧ Unescaped '\'' "secret" :=
  definesLogin_iff .verbatim sampleCluster rfl rfl sampleExternals_encodes

/-- A generated password has nothing to escape. -/
theorem unescaped_password {n : ℕ} (d : Draws n) : Unescaped '\'' d.password := by
  have hnot {q : Char} (hq : q ∈ delimiters) : q ∉ d.password.toList :=
    fun hmem => (visible_of_mem (d.mem_password hmem)).2 hq
  exact ⟨hnot (by decide), hnot (by decide)⟩

/-- The controllers log in with every Secret that the Cluster controller generates. -/
theorem definesLogin_rootSecret (e : Escapes) {libs : Externals} {decode : String → Option String}
    (c : Cluster) {n : ℕ} (d : Draws n)
    (hlibs : libs.Encodes decode ("root" ++ ":" ++ d.password)) :
    DefinesLogin e libs decode c (c.rootSecret d.password).stored "root" d.password := by
  have hcred : (c.rootSecret d.password).stored.credentials = some ("root", d.password) :=
    credentials_of_lookup rfl rfl
  have hroot : IsIdentifier "root" := by decide
  refine ⟨_, _, hcred, (reads_defineRootUser_iff e _ _).mpr ⟨hroot, unescaped_password d⟩, _,
    headerValue_basicAuthHeader hlibs, ?_⟩
  exact (basicCredentials_basicAuthHeader_iff hlibs).mpr hroot.colon_not_mem

/-- A Secret with the root user `app-admin`. -/
def hyphenSecret : Secret :=
  { metadata := { name := "root", ns := "prod" }, type := "Opaque"
    data := [("password", "secret".toUTF8), ("user", "app-admin".toUTF8)] }

/-- The root user of `hyphenSecret` is not defined: its name is read as three tokens. -/
theorem hyphen_in_user_misread :
    hyphenSecret.data.lookup "user" = some "app-admin".toUTF8 ∧
      hyphenSecret.data.lookup "password" = some "secret".toUTF8 ∧
      ¬ DefinesLogin .verbatim sampleExternals sampleDecode sampleCluster hyphenSecret "app-admin"
        "secret" := by
  refine ⟨rfl, rfl, ?_⟩
  rintro ⟨u, p, hup, hreads, -⟩
  have hcred : hyphenSecret.credentials = some ("app-admin", "secret") :=
    credentials_of_lookup rfl rfl
  obtain ⟨rfl, rfl⟩ := Prod.mk.inj (Option.some.inj (hup.symm.trans hcred))
  exact absurd ((reads_defineRootUser_iff _ _ _).mp hreads).1 (by decide)

end SdbController
