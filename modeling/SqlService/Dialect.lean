/-!
# SQL dialects

The three dialects and the rules of spelling in which they differ: how identifiers are quoted, how
parameters are written before and after binding, whether a backslash escapes inside literals, how
a page of rows is asked for.
-/

namespace SqlService

/-- A dialect of SQL. -/
inductive Dialect where
  | mysql
  | postgres
  | sqlite
  deriving DecidableEq, Repr

namespace Dialect

/-- The dialects. -/
def all : List Dialect := [mysql, postgres, sqlite]

/-- The name of a dialect. -/
def name : Dialect → String
  | mysql => "mysql"
  | postgres => "postgres"
  | sqlite => "sqlite"

/-! ## §1 Names and parameters -/

/-- An identifier as it is written in a statement: between grave accents, except in PostgreSQL,
where it stands bare. -/
def quote (d : Dialect) (identifier : String) : String :=
  match d with
  | postgres => identifier
  | _ => "\x60" ++ identifier ++ "\x60"

/-- A named parameter as it is written in generated statements. -/
def placeholder (_ : Dialect) (name : String) : String := "@" ++ name

/-- Whether positional parameters carry the number of their value. -/
def numbered : Dialect → Bool
  | postgres => true
  | _ => false

/-- The parameter of the value with the given number, counted from one. -/
def positional (d : Dialect) (index : Nat) : String :=
  if d.numbered then "$" ++ toString index else "?"

/-- Whether a backslash escapes the next character inside a string literal. -/
def backslashEscapes : Dialect → Bool
  | mysql => true
  | _ => false

/-! ## §2 Expressions and clauses -/

/-- The pattern that matches texts containing the value of a parameter. -/
def containsPattern (d : Dialect) (parameter : String) : String :=
  match d with
  | sqlite => "'%' || " ++ parameter ++ " || '%'"
  | _ => "CONCAT('%'," ++ parameter ++ ",'%')"

/-- The statement restricted to `limit` rows from `offset` on. -/
def page (d : Dialect) (sql : String) (offset limit : UInt64) : String :=
  match d with
  | mysql => sql ++ "\nLIMIT " ++ toString offset.toNat ++ "," ++ toString limit.toNat
  | _ => sql ++ "\nLIMIT " ++ toString limit.toNat ++ " OFFSET " ++ toString offset.toNat

/-- Whether the type of an existing column can be altered. -/
def altersColumns : Dialect → Bool
  | sqlite => false
  | _ => true

/-- What follows the definition of a column that the database fills. -/
def autoIncrementKeyword : Dialect → String
  | mysql => " AUTO_INCREMENT"
  | postgres => ""
  | sqlite => " PRIMARY KEY AUTOINCREMENT"

/-- Whether that keyword already declares the primary key. -/
def identityIsInlineKey : Dialect → Bool
  | sqlite => true
  | _ => false

end Dialect

end SqlService
