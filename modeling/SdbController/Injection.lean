import SdbController.Database.Reconcile
import SdbController.Lexing.Literal
import SdbController.User.Reconcile

/-!
# Names and passwords as SurrealDB reads them

The texts of `Sql.text`, read with SurrealQL's lexical rules. A text reads as some statements if it
has exactly their tokens, so each name and each password is read as the string it was written from.

The source writes every delimiter inside a quoted name or password twice. In SurrealQL this is no
escape: the first of the two ends the literal. So the texts read as intended if and only if there is
nothing to escape, and the doubling changes nothing about it. The text for the root user has its
name unquoted and its password as it is.

## Main results

* `reads_defineRootUser_iff` and its siblings — when a text reads as intended
* `injectionFree_iff` — the names and passwords that are sent as they are
-/

namespace SdbController

open Interaction Program Lexing

/-! ### Lexical rules -/

/-- What may follow a backslash, and what it stands for. The backslash stands for itself, and
nothing else stands for it. -/
structure Escapes where
  unescape : Char → Option Char
  unescape_eq_backslash : ∀ c, unescape c = some '\\' ↔ c = '\\'

/-- Every escaped character stands for itself. -/
def Escapes.verbatim : Escapes where
  unescape := some
  unescape_eq_backslash _ := Option.some_inj

/-- SurrealQL's lexical rules. An unquoted identifier is letters, digits and underscores. -/
def surrealql (e : Escapes) : Rules where
  isSpace := Char.isWhitespace
  isWord c := c.isAlphanum || c == '_'
  isQuote c := c == '\x60' || c == '\'' || c == '"'
  escape := '\\'
  unescape := e.unescape
  isQuote_escape := by decide
  unescape_eq_escape := e.unescape_eq_backslash

/-- The statements, as SurrealDB executes them. -/
inductive Statement
  | defineRootUser (user password : String)
  | defineNamespace (ns : String)
  | useNs (ns : String)
  | useDb (db : String)
  | defineDatabase (db : String)
  | defineDatabaseUser (username password : String)
deriving DecidableEq, Repr

namespace Statement

def keyword (s : String) : Token := .word s.toList

def ident (name : String) : Token := .literal '\x60' name.toList

def string (s : String) : Token := .literal '\'' s.toList

def tokens : Statement → List Token
  | defineRootUser user password =>
    [keyword "DEFINE", keyword "USER", .word user.toList, keyword "ON", keyword "ROOT",
      keyword "PASSWORD", string password, keyword "ROLES", keyword "OWNER", .symbol ';']
  | defineNamespace ns => [keyword "DEFINE", keyword "NAMESPACE", ident ns, .symbol ';']
  | useNs ns => [keyword "USE", keyword "NS", ident ns, .symbol ';']
  | useDb db => [keyword "USE", keyword "DB", ident db, .symbol ';']
  | defineDatabase db => [keyword "DEFINE", keyword "DATABASE", ident db, .symbol ';']
  | defineDatabaseUser username password =>
    [keyword "DEFINE", keyword "USER", ident username, keyword "ON", keyword "DATABASE",
      keyword "PASSWORD", string password, keyword "ROLES", keyword "EDITOR", .symbol ';']

end Statement

/-- SurrealDB reads the text as exactly these statements. -/
def Reads (e : Escapes) (text : String) (statements : List Statement) : Prop :=
  lex (surrealql e) text.toList = some (statements.flatMap Statement.tokens)

/-- A string with nothing to escape between two `quote`s. -/
def Unescaped (quote : Char) (s : String) : Prop := quote ∉ s.toList ∧ '\\' ∉ s.toList

instance (quote : Char) (s : String) : Decidable (Unescaped quote s) :=
  inferInstanceAs (Decidable (_ ∧ _))

/-- An identifier that need not be quoted. -/
def IsIdentifier (s : String) : Prop := s.toList ≠ [] ∧ ∀ c ∈ s.toList, c.isAlphanum || c == '_'

instance (s : String) : Decidable (IsIdentifier s) :=
  decidable_of_iff (s.toList ≠ [] ∧ s.toList.all fun c => c.isAlphanum || c == '_')
    (and_congr_right fun _ => List.all_eq_true)

/-! ### Piece by piece -/

theorem toList_double (q : Char) (s : String) : (double q s).toList = stuff q [q] s.toList := by
  rw [double, String.toList_ofList, stuff]
  refine List.flatMap_congr fun c _ => ?_
  by_cases hc : c = q
  · rw [if_pos hc, if_pos hc, hc]
  · rw [if_neg hc, if_neg hc]

/-- What stands in quotes, read up to the last of them. -/
theorem lexFrom_quoted_iff (e : Escapes) {q : Char} (hq : q ≠ '\\') {s : String} {rest : List Char}
    {ts : List Token} :
    lexFrom (surrealql e) (.literal q []) ((double q s).toList ++ q :: rest) =
        some (.literal q s.toList :: ts) ↔
      Unescaped q s ∧ lexFrom (surrealql e) .between rest = some ts := by
  rw [toList_double]
  have hquote : q ≠ (surrealql e).escape := hq
  exact lexFrom_literal_iff hquote

section Texts

variable (e : Escapes) (ns db username password user pass : String)

/-- The text of `ensure_surreal_namespace`. -/
theorem reads_defineNamespace_iff :
    Reads e (Sql.defineNamespace ns).text [.defineNamespace ns] ↔ Unescaped '\x60' ns := by
  have htext : (Sql.defineNamespace ns).text.toList =
      "DEFINE NAMESPACE \x60".toList ++ ((double '\x60' ns).toList ++ '\x60' :: [';']) := by
    unfold Sql.text quoteIdent
    simp only [String.toList_append, String.reduceToList, List.cons_append, List.nil_append,
      List.append_assoc]
  rw [Reads, lex, htext]
  refine (lexFrom_append_iff _ [.word "DEFINE".toList, .word "NAMESPACE".toList]
    (by simp only [String.reduceToList]; rfl)).trans ?_
  exact (lexFrom_quoted_iff e (by decide)).trans (and_iff_left rfl)

/-- The beginning of the texts that use a namespace. -/
theorem lexFrom_useNs_iff {rest : List Char} {ts : List Token} :
    lexFrom (surrealql e) .between
        ("USE NS \x60".toList ++ ((double '\x60' ns).toList ++ '\x60' :: ';' :: rest)) =
          some ((Statement.useNs ns).tokens ++ ts) ↔
      Unescaped '\x60' ns ∧ lexFrom (surrealql e) .between rest = some ts := by
  refine (lexFrom_append_iff _ [.word "USE".toList, .word "NS".toList]
    (by simp only [String.reduceToList]; rfl)).trans ?_
  refine (lexFrom_quoted_iff e (by decide)).trans (and_congr_right fun _ => ?_)
  exact lexFrom_append_iff [';'] [.symbol ';'] rfl

/-- The text of `ensure_surreal_database`. -/
theorem reads_defineDatabase_iff :
    Reads e (Sql.defineDatabase ns db).text [.useNs ns, .defineDatabase db] ↔
      Unescaped '\x60' ns ∧ Unescaped '\x60' db := by
  have htext : (Sql.defineDatabase ns db).text.toList =
      "USE NS \x60".toList ++ ((double '\x60' ns).toList ++ '\x60' :: ';' ::
        (" DEFINE DATABASE \x60".toList ++ ((double '\x60' db).toList ++ '\x60' :: [';']))) := by
    unfold Sql.text quoteIdent
    simp only [String.toList_append, String.reduceToList, List.cons_append, List.nil_append,
      List.append_assoc]
  rw [Reads, lex, htext]
  refine (lexFrom_useNs_iff e ns).trans (and_congr_right fun _ => ?_)
  refine (lexFrom_append_iff _ [.word "DEFINE".toList, .word "DATABASE".toList]
    (by simp only [String.reduceToList]; rfl)).trans ?_
  exact (lexFrom_quoted_iff e (by decide)).trans (and_iff_left rfl)

/-- The text of `provision_user`. -/
theorem reads_defineDatabaseUser_iff :
    Reads e (Sql.defineDatabaseUser ns db username password).text
        [.useNs ns, .useDb db, .defineDatabaseUser username password] ↔
      Unescaped '\x60' ns ∧ Unescaped '\x60' db ∧ Unescaped '\x60' username ∧
        Unescaped '\'' password := by
  have htext : (Sql.defineDatabaseUser ns db username password).text.toList =
      "USE NS \x60".toList ++ ((double '\x60' ns).toList ++ '\x60' :: ';' ::
        (" USE DB \x60".toList ++ ((double '\x60' db).toList ++ '\x60' ::
          ("; DEFINE USER \x60".toList ++ ((double '\x60' username).toList ++ '\x60' ::
            (" ON DATABASE PASSWORD '".toList ++ ((double '\'' password).toList ++ '\'' ::
              " ROLES EDITOR;".toList))))))) := by
    unfold Sql.text quoteIdent
    simp only [String.toList_append, String.reduceToList, List.cons_append, List.nil_append,
      List.append_assoc]
  rw [Reads, lex, htext]
  refine (lexFrom_useNs_iff e ns).trans (and_congr_right fun _ => ?_)
  refine (lexFrom_append_iff _ [.word "USE".toList, .word "DB".toList]
    (by simp only [String.reduceToList]; rfl)).trans ?_
  refine (lexFrom_quoted_iff e (by decide)).trans (and_congr_right fun _ => ?_)
  refine (lexFrom_append_iff _ [.symbol ';', .word "DEFINE".toList, .word "USER".toList]
    (by simp only [String.reduceToList]; rfl)).trans ?_
  refine (lexFrom_quoted_iff e (by decide)).trans (and_congr_right fun _ => ?_)
  refine (lexFrom_append_iff _ [.word "ON".toList, .word "DATABASE".toList, .word "PASSWORD".toList]
    (by simp only [String.reduceToList]; rfl)).trans ?_
  refine (lexFrom_quoted_iff e (by decide)).trans (and_iff_left ?_)
  simp only [String.reduceToList]
  rfl

/-- The text of `bootstrap_root_user`. -/
theorem reads_defineRootUser_iff :
    Reads e (Sql.defineRootUser user pass).text [.defineRootUser user pass] ↔
      IsIdentifier user ∧ Unescaped '\'' pass := by
  have htext : (Sql.defineRootUser user pass).text.toList =
      "DEFINE USER ".toList ++ (user.toList ++ ' ' :: ("ON ROOT PASSWORD '".toList ++
        (stuff '\'' [] pass.toList ++ '\'' :: " ROLES OWNER;".toList))) := by
    unfold Sql.text
    simp only [stuff_nil_extra, String.toList_append, String.reduceToList, List.cons_append,
      List.nil_append, List.append_assoc]
  rw [Reads, lex, htext]
  refine (lexFrom_append_iff _ [.word "DEFINE".toList, .word "USER".toList]
    (by simp only [String.reduceToList]; rfl)).trans ?_
  have hspace : ¬ (surrealql e).isWord ' ' := by
    rw [show (surrealql e).isWord ' ' = false from rfl]
    exact Bool.false_ne_true
  refine (lexFrom_word_iff hspace).trans (and_congr_right fun _ => ?_)
  rw [lexFrom_cons, show advance (surrealql e) .between ' ' = some ([], .between) from rfl,
    Option.bind_some]
  simp only [List.nil_append, Option.map_id_fun', id_eq]
  refine (lexFrom_append_iff _ [.word "ON".toList, .word "ROOT".toList, .word "PASSWORD".toList]
    (by simp only [String.reduceToList]; rfl)).trans ?_
  have hquote : '\'' ≠ (surrealql e).escape := show '\'' ≠ '\\' by decide
  refine (lexFrom_literal_iff hquote).trans (and_iff_left ?_)
  simp only [String.reduceToList]
  rfl

end Texts

/-! ### What is sent -/

/-- Whatever comes of it, every request of `m` reads as the statements. -/
def Reconciler.Sends {α : Type} (e : Escapes) (statements : List Statement) (m : Reconciler α) :
    Prop :=
  Meets (fun _ q => ∀ r, q = .http r → Reads e r.body.text statements) (fun _ _ => True) [] m.run

/-- Libraries to which every address is that of a service. -/
def anyAddress : Externals where
  urlParse _ := .ok ⟨some "db-surrealdb.prod.svc.cluster.local", some 8000, "/sql"⟩
  base64 s := s

/-- What is sent is the text, if the request can be built at all. -/
theorem sends_sendSql_iff (e : Escapes) (sql : Sql) (statements : List Statement) :
    (∀ libs client clusterNs clusterName user pass,
      Reconciler.Sends e statements
        (sendSql libs client clusterNs clusterName user pass sql)) ↔
      Reads e sql.text statements := by
  simp only [Reconciler.Sends, meets_sendSql, implies_true, and_true]
  constructor
  · intro h
    obtain ⟨request, hreq⟩ : ∃ request,
        sqlRequest anyAddress .reqwest "" "" "" "" sql = .ok request := ⟨_, rfl⟩
    have hreads := h anyAddress .reqwest "" "" "" "" request hreq _ rfl
    rwa [(sqlRequest_eq_ok hreq).2] at hreads
  · intro h libs client clusterNs clusterName user pass request hreq r hr
    cases hr
    rwa [(sqlRequest_eq_ok hreq).2]

/-- Whatever the address and the root credentials, the requests for these names and this password
read as the statements they are for. -/
def InjectionFree (e : Escapes) (ns db username password : String) : Prop :=
  ∀ libs client clusterNs clusterName user pass,
    Reconciler.Sends e [.defineNamespace ns]
      (Database.ensureSurrealNamespace libs client clusterNs clusterName ns user pass) ∧
    Reconciler.Sends e [.useNs ns, .defineDatabase db]
      (Database.ensureSurrealDatabase libs client clusterNs clusterName ns db user pass) ∧
    Reconciler.Sends e [.useNs ns, .useDb db, .defineDatabaseUser username password]
      (User.provisionUser libs client clusterNs clusterName ns db username password user pass)

/-- **When there is no injection.** For every choice of the escape sequences, the requests read as
intended if and only if no name contains a backtick or a backslash, and the password neither a
quote nor a backslash. -/
theorem injectionFree_iff (e : Escapes) (ns db username password : String) :
    InjectionFree e ns db username password ↔
      Unescaped '\x60' ns ∧ Unescaped '\x60' db ∧ Unescaped '\x60' username ∧
        Unescaped '\'' password := by
  simp only [InjectionFree, forall_and, Database.ensureSurrealNamespace,
    Database.ensureSurrealDatabase, User.provisionUser, sends_sendSql_iff,
    reads_defineNamespace_iff, reads_defineDatabase_iff, reads_defineDatabaseUser_iff]
  constructor
  · exact fun h => h.2.2
  · exact fun h => ⟨h.1, ⟨h.1, h.2.1⟩, h⟩

/-- The password `it's` is not sent as it is: its quote ends the literal. -/
theorem quote_in_password_injects : ¬ InjectionFree .verbatim "shop" "orders" "alice" "it's" := by
  intro h
  have hreads := (sends_sendSql_iff _ _ _).mp fun libs client clusterNs clusterName user pass =>
    (h libs client clusterNs clusterName user pass).2.2
  exact absurd ((reads_defineDatabaseUser_iff _ _ _ _ _).mp hreads).2.2.2 (by decide)

end SdbController
