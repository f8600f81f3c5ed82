import SdbController.Injection
import SdbController.Lexing.Template

/-!
# What the texts determine

The three functions that double the delimiters of their arguments, as templates: fixed texts with
places for the arguments. SurrealDB does not read a doubled delimiter as an escape, but the texts
still determine the arguments they were built from, and the function that built them. A reader who
takes each literal up to the end of the first run of delimiters of odd length gets them back.

## Main results

* `write_template` — the text of a call is its template with the arguments filled in
* `builds_iff` — what a call sends, whatever the address and the root credentials
* `definitions_uniquely_decodable`
-/

namespace SdbController

open Interaction Program Lexing

/-- The text is exactly these statements, if the delimiter of a literal is written twice to escape
it. -/
def ReadsDoubled (e : Escapes) (text : String) (statements : List Statement) : Prop :=
  lexDoubled (surrealql e) text.toList = some (statements.flatMap Statement.tokens)

/-- The calls of `ensure_surreal_namespace`, `ensure_surreal_database` and `provision_user`, by the
arguments that go into the text. -/
inductive Definition
  | surrealNamespace (nsName : String)
  | surrealDatabase (nsName dbName : String)
  | user (nsName dbName username password : String)
deriving DecidableEq, Repr

namespace Definition

/-- The call, with the other arguments. -/
def send (libs : Externals) (client : Client) (clusterNs clusterName user pass : String) :
    Definition → Reconciler Unit
  | surrealNamespace nsName =>
    Database.ensureSurrealNamespace libs client clusterNs clusterName nsName user pass
  | surrealDatabase nsName dbName =>
    Database.ensureSurrealDatabase libs client clusterNs clusterName nsName dbName user pass
  | .user nsName dbName username password =>
    User.provisionUser libs client clusterNs clusterName nsName dbName username password user pass

def sql : Definition → Sql
  | surrealNamespace nsName => .defineNamespace nsName
  | surrealDatabase nsName dbName => .defineDatabase nsName dbName
  | user nsName dbName username password => .defineDatabaseUser nsName dbName username password

def arguments : Definition → List String
  | surrealNamespace nsName => [nsName]
  | surrealDatabase nsName dbName => [nsName, dbName]
  | user nsName dbName username password => [nsName, dbName, username, password]

/-- The text of `ensure_surreal_namespace`, with places for its arguments. -/
def namespaceTemplate : Template :=
  .hole "DEFINE NAMESPACE ".toList '\x60' <| .done ";".toList

/-- The text of `ensure_surreal_database`. -/
def databaseTemplate : Template :=
  .hole "USE NS ".toList '\x60' <| .hole "; DEFINE DATABASE ".toList '\x60' <| .done ";".toList

/-- The text of `provision_user`. -/
def userTemplate : Template :=
  .hole "USE NS ".toList '\x60' <| .hole "; USE DB ".toList '\x60' <|
    .hole "; DEFINE USER ".toList '\x60' <| .hole " ON DATABASE PASSWORD ".toList '\'' <|
      .done " ROLES EDITOR;".toList

def template : Definition → Template
  | surrealNamespace _ => namespaceTemplate
  | surrealDatabase _ _ => databaseTemplate
  | user _ _ _ _ => userTemplate

variable (a b : Definition)

theorem separated_template : a.template.Separated := by
  cases a with
  | surrealNamespace => exact (by decide : namespaceTemplate.Separated)
  | surrealDatabase => exact (by decide : databaseTemplate.Separated)
  | user => exact (by decide : userTemplate.Separated)

/-- The text is the template with the arguments filled in. -/
theorem write_template :
    a.template.write (a.arguments.map String.toList) = some a.sql.text.toList := by
  cases a <;>
  · refine congrArg some ?_
    rw [sql]
    unfold Sql.text quoteIdent
    simp only [String.toList_append, toList_double, String.reduceToList, List.cons_append,
      List.nil_append, List.append_assoc]

/-- Reading the text by the template gives the arguments. -/
theorem read_template_iff {text : String} :
    a.template.read text.toList = some (a.arguments.map String.toList) ↔ text = a.sql.text := by
  rw [Template.read_eq_some_iff a.separated_template, write_template, Option.some_inj,
    String.toList_inj]
  exact eq_comm

/-! ### Read with doubled delimiters -/

/-- What the call is for. -/
def statements : Definition → List Statement
  | surrealNamespace nsName => [.defineNamespace nsName]
  | surrealDatabase nsName dbName => [.useNs nsName, .defineDatabase dbName]
  | user nsName dbName username password =>
    [.useNs nsName, .useDb dbName, .defineDatabaseUser username password]

/-- Were a doubled delimiter an escape, there would be no injection. -/
theorem readsDoubled_statements (e : Escapes) : ReadsDoubled e a.sql.text a.statements := by
  have hopens : a.template.Opens (surrealql e) := by
    cases a with
    | surrealNamespace => exact ⟨rfl, trivial⟩
    | surrealDatabase => exact ⟨rfl, rfl, trivial⟩
    | user => exact ⟨rfl, rfl, rfl, rfl, trivial⟩
  rw [ReadsDoubled, Template.lexDoubled_of_write a.separated_template hopens a.write_template]
  cases a <;> rfl

/-! ### Which call a text comes from -/

theorem apart_namespace_database : Template.Apart namespaceTemplate databaseTemplate :=
  .opening (by decide)

theorem apart_namespace_user : Template.Apart namespaceTemplate userTemplate :=
  .opening (by decide)

/-- Both texts use a namespace first, and then differ. -/
theorem apart_database_user : Template.Apart databaseTemplate userTemplate :=
  .hole (.opening (by decide))

variable {a b}

theorem template_eq_or_apart (a b : Definition) :
    a.template = b.template ∨ Template.Apart a.template b.template :=
  match a, b with
  | surrealNamespace _, surrealNamespace _ => .inl rfl
  | surrealNamespace _, surrealDatabase _ _ => .inr apart_namespace_database
  | surrealNamespace _, user _ _ _ _ => .inr apart_namespace_user
  | surrealDatabase _ _, surrealNamespace _ => .inr apart_namespace_database.symm
  | surrealDatabase _ _, surrealDatabase _ _ => .inl rfl
  | surrealDatabase _ _, user _ _ _ _ => .inr apart_database_user
  | user _ _ _ _, surrealNamespace _ => .inr apart_namespace_user.symm
  | user _ _ _ _, surrealDatabase _ _ => .inr apart_database_user.symm
  | user _ _ _ _, user _ _ _ _ => .inl rfl

/-- The calls have different numbers of arguments. -/
theorem arguments_injective (h : a.arguments = b.arguments) : a = b := by
  cases a <;> cases b <;> simp_all [arguments]

/-- The text determines the call. -/
theorem text_injective (h : a.sql.text = b.sql.text) : a = b := by
  have ha := a.write_template
  have hb := b.write_template
  rw [h] at ha
  rcases template_eq_or_apart a b with heq | hapart
  · rw [heq] at ha
    have harguments := Template.write_inj b.separated_template ha hb
    have hinj : Function.Injective String.toList := fun _ _ => String.toList_inj.mp
    exact arguments_injective (List.map_injective_iff.mpr hinj harguments)
  · exact absurd hb (hapart.write_ne a.separated_template b.separated_template ha)

/-! ### What is sent -/

/-- In some run, with some address and some root credentials, the call sends this text. -/
def Builds (a : Definition) (text : String) : Prop :=
  ∃ libs client clusterNs clusterName user pass h q k,
    After (a.send libs client clusterNs clusterName user pass).run h (.call (.http q) k) ∧
      q.body.text = text

theorem send_eq_sendSql (a : Definition) (libs : Externals) (client : Client)
    (clusterNs clusterName user pass : String) :
    a.send libs client clusterNs clusterName user pass =
      sendSql libs client clusterNs clusterName user pass a.sql := by
  cases a <;> rfl

/-- A call sends its text and no other. -/
theorem builds_iff {text : String} : a.Builds text ↔ text = a.sql.text := by
  simp only [Builds, send_eq_sendSql]
  constructor
  · rintro ⟨libs, client, clusterNs, clusterName, user, pass, h, q, k, hafter, rfl⟩
    have hcalls : Reconciler.Calls (fun c => ∀ q, c = .http q → q.body = a.sql)
        (sendSql libs client clusterNs clusterName user pass a.sql) :=
      calls_sendSql fun request hreq q hq => by
        cases hq
        exact (sqlRequest_eq_ok hreq).2
    have hcall := ((hcalls []).of_after hafter).1
    rw [hcall q rfl]
  · rintro rfl
    obtain ⟨request, hreq⟩ : ∃ request,
        sqlRequest anyAddress .reqwest "" "" "" "" a.sql = .ok request := ⟨_, rfl⟩
    -- the strongest guard says that the request is sent
    obtain ⟨k, hafter⟩ := ((meets_sendSql.mp After.start.meets_calls).1 request hreq).1
    exact ⟨anyAddress, .reqwest, "", "", "", "", [], _, k, hafter,
      congrArg Sql.text (sqlRequest_eq_ok hreq).2⟩

end Definition

/-- **The texts are uniquely decodable.** A text comes from one call only, whatever the strings in
it; and it comes from this call if and only if reading its literals, each up to the end of the first
run of delimiters of odd length, gives the arguments of the call. -/
theorem definitions_uniquely_decodable :
    (∀ (a b : Definition) (text : String), a.Builds text → b.Builds text → a = b) ∧
      ∀ (a : Definition) (text : String), a.Builds text ↔
        a.template.read text.toList = some (a.arguments.map String.toList) := by
  refine ⟨fun a b text ha hb => ?_, fun a text => ?_⟩
  · rw [Definition.builds_iff] at ha hb
    exact Definition.text_injective (ha.symm.trans hb)
  · rw [Definition.builds_iff, Definition.read_template_iff]

/-- Two statements in the name of a namespace do not look like those of another call. -/
theorem definitions_uniquely_decodable_sample :
    Definition.Builds (.surrealDatabase "a`; DEFINE DATABASE `b" "c")
        "USE NS `a``; DEFINE DATABASE ``b`; DEFINE DATABASE `c`;" ∧
      ¬ Definition.Builds (.surrealDatabase "a" "b`; DEFINE DATABASE `c")
        "USE NS `a``; DEFINE DATABASE ``b`; DEFINE DATABASE `c`;" := by
  have hbuilds : Definition.Builds (.surrealDatabase "a`; DEFINE DATABASE `b" "c")
      "USE NS `a``; DEFINE DATABASE ``b`; DEFINE DATABASE `c`;" :=
    (definitions_uniquely_decodable.2 _ _).mpr (by decide)
  refine ⟨hbuilds, fun hother => ?_⟩
  exact absurd (definitions_uniquely_decodable.1 _ _ _ hbuilds hother) (by decide)

end SdbController
