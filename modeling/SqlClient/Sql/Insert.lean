import SqlClient.Casing
import SqlClient.Error
import SqlClient.Sql.Fragment
/-!
# Inserts

One `INSERT` for rows that may lack columns of one another. The columns are those of all rows in
the order they are first seen; a row without one of them gets `DEFAULT` there.
-/
namespace SqlClient.Sql

namespace Fragment

def precede (s : String) : Fragment → Fragment
  | .text t => .text (s ++ t)
  | .bind t v rest => .bind (s ++ t) v rest
  | .splice t f rest => .splice (s ++ t) f rest

def append (f g : Fragment) : Fragment := f.extend fun t => g.precede t

instance : Append Fragment := ⟨append⟩

def commas : List Fragment → Fragment
  | [] => .text ""
  | [f] => f
  | f :: g :: fs => f ++ (commas (g :: fs)).precede ", "

end Fragment

namespace Insert

def columns (rows : List Record) : List String := (rows.flatMap Record.keys).eraseDups

def quotedName (s : String) : Fragment := .ident (.name s)

/-- The value of a row for a column, or `DEFAULT`. -/
def cell (row : Record) (column : String) : Fragment :=
  match row.get? column with
  | some v => .bind "" v (.text "")
  | none => .text "DEFAULT"

def tuple (columns : List String) (row : Record) : Fragment :=
  .text "(" ++ Fragment.commas (columns.map (cell row)) ++ .text ")"

def body (columns : List String) (rows : List Record) : Fragment :=
  if columns.isEmpty then .text "\nDEFAULT VALUES"
  else .text " (" ++ Fragment.commas (columns.map quotedName) ++ .text ")\nVALUES " ++
    Fragment.commas (rows.map (tuple columns))

/-- The columns to return, all of them by default. -/
def returningClause (returning : List String) : Fragment :=
  .text "\nRETURNING " ++
    (if returning.isEmpty then .text "*" else Fragment.commas (returning.map quotedName))

def noRows : SqlError := .invalidInput "insert requires at least one row"

def noColumns : SqlError := .invalidInput "cannot insert several rows that have no columns"

def build (table : IdentPath) (rows : List Record) (returning : List String) :
    Except SqlError Fragment :=
  let columns := columns rows
  if rows.isEmpty then .error noRows
  else if columns.isEmpty && 1 < rows.length then .error noColumns
  else .ok (.text "INSERT INTO " ++ .ident table ++ body columns rows ++ returningClause returning)

def fragment (table : IdentPath) (rows : List Record) (returning : List String)
    (casing : Casing.RowCasing) : Except SqlError Fragment :=
  build table (rows.map casing.outbound) returning

def statement (table : IdentPath) (rows : List Record) (returning : List String)
    (casing : Casing.RowCasing) : Except SqlError Statement :=
  (fragment table rows returning casing).map Fragment.compile

end Insert

end SqlClient.Sql
