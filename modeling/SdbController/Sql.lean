import Mathlib.Data.List.Basic

/-!
# The SurrealQL statements

The four statements the controllers send, with the text each `format!` builds. An identifier is
quoted by doubling its backticks and the password of a database user by doubling its quotes; the
root user's name and password go into the text as they are.
-/

namespace SdbController

/-- `str::replace` of the character `q` by two of it. -/
def double (q : Char) (s : String) : String :=
  String.ofList (s.toList.flatMap fun c => if c = q then [c, c] else [c])

/-- The source's backtick-quoted identifiers. -/
def quoteIdent (s : String) : String := "`" ++ double '\x60' s ++ "`"

/-- The statements, by the arguments they are built from. -/
inductive Sql
  | defineRootUser (user pass : String)
  | defineNamespace (nsName : String)
  | defineDatabase (nsName dbName : String)
  | defineDatabaseUser (nsName dbName username password : String)
deriving DecidableEq, Repr

/-- The text that is sent. -/
def Sql.text : Sql → String
  | .defineRootUser user pass =>
    "DEFINE USER " ++ user ++ " ON ROOT PASSWORD '" ++ pass ++ "' ROLES OWNER;"
  | .defineNamespace nsName => "DEFINE NAMESPACE " ++ quoteIdent nsName ++ ";"
  | .defineDatabase nsName dbName =>
    "USE NS " ++ quoteIdent nsName ++ "; DEFINE DATABASE " ++ quoteIdent dbName ++ ";"
  | .defineDatabaseUser nsName dbName username password =>
    "USE NS " ++ quoteIdent nsName ++ "; USE DB " ++ quoteIdent dbName ++ "; DEFINE USER " ++
      quoteIdent username ++ " ON DATABASE PASSWORD '" ++ double '\'' password ++
      "' ROLES EDITOR;"

end SdbController
