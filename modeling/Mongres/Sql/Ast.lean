/-!
# The parsed SQL statement

The syntax tree that the SQL parser hands to lowering.  A clause that lowering
only tests for presence keeps its text; an alternative that lowering always
refuses is `other`.
-/

namespace Mongres.Ast

/-- A clause of which only the presence matters, with its SQL text. -/
abbrev Clause := String

structure Ident where
  value : String
  quoteStyle : Option Char
  deriving DecidableEq, Repr

def Ident.new (value : String) : Ident := ⟨value, none⟩

abbrev ObjectName := List Ident

inductive Value where
  | number (text : String) (long : Bool)
  | singleQuotedString (value : String)
  | escapedStringLiteral (value : String)
  | unicodeStringLiteral (value : String)
  | nationalStringLiteral (value : String)
  | boolean (value : Bool)
  | null
  | placeholder (name : String)
  | other (text : String)
  deriving DecidableEq, Repr

inductive BinaryOperator where
  | and
  | or
  | eq
  | notEq
  | gt
  | gtEq
  | lt
  | ltEq
  | other (text : String)
  deriving DecidableEq, Repr

inductive Expr where
  | identifier (ident : Ident)
  | compoundIdentifier (idents : List Ident)
  | value (value : Value)
  | nested (expression : Expr)
  | binaryOp (left : Expr) (op : BinaryOperator) (right : Expr)
  | inList (expr : Expr) (list : List Expr) (negated : Bool)
  | isNull (expression : Expr)
  | isNotNull (expression : Expr)
  | other (text : String)

inductive TableFactor where
  | table (name : ObjectName) (tableAlias args : Option Clause) (withHints : List Clause)
      (version : Option Clause) (withOrdinality : Bool) (partitions : List Ident)
      (jsonPath : Option Clause)
  | other (text : String)

structure TableWithJoins where
  relation : TableFactor
  joins : List Clause

inductive SelectItem where
  | unnamedExpr (expression : Expr)
  | exprWithAlias (expr : Expr) (columnAlias : Ident)
  | qualifiedWildcard (name : ObjectName) (options : Clause)
  | wildcard (options : Clause)

inductive GroupByExpr where
  | all (modifiers : List Clause)
  | expressions (expressions : List Expr) (modifiers : List Clause)

structure Select where
  distinct : Option Clause
  top : Option Clause
  topBeforeDistinct : Bool
  projection : List SelectItem
  into : Option Clause
  fromTables : List TableWithJoins
  lateralViews : List Clause
  prewhere : Option Clause
  selection : Option Expr
  groupBy : GroupByExpr
  clusterBy : List Expr
  distributeBy : List Expr
  sortBy : List Expr
  having : Option Clause
  namedWindow : List Clause
  qualify : Option Clause
  windowBeforeQualify : Bool
  valueTableMode : Option Clause
  connectBy : Option Clause

inductive SetExpr where
  | select (select : Select)
  | values (explicitRow : Bool) (rows : List (List Expr))
  | other (text : String)

structure Query where
  withClause : Option Clause
  body : SetExpr
  orderBy : Option Clause
  limit : Option Expr
  limitBy : List Expr
  offset : Option Clause
  fetch : Option Clause
  locks : List Clause
  forClause : Option Clause
  settings : Option Clause
  formatClause : Option Clause

structure Insert where
  or : Option Clause
  ignore : Bool
  into : Bool
  tableName : ObjectName
  tableAlias : Option Ident
  columns : List Ident
  overwrite : Bool
  source : Option Query
  partitioned : Option Clause
  afterColumns : List Ident
  table : Bool
  on : Option Clause
  returning : Option (List SelectItem)
  replaceInto : Bool
  priority : Option Clause
  insertAlias : Option Clause

inductive AssignmentTarget where
  | columnName (name : ObjectName)
  | tuple (names : List ObjectName)

structure Assignment where
  target : AssignmentTarget
  value : Expr

structure Update where
  table : TableWithJoins
  assignments : List Assignment
  fromTable : Option TableWithJoins
  selection : Option Expr
  returning : Option (List SelectItem)
  or : Option Clause

inductive FromTable where
  | withFromKeyword (tables : List TableWithJoins)
  | withoutKeyword (tables : List TableWithJoins)

structure Delete where
  tables : List ObjectName
  fromTable : FromTable
  usingTables : Option (List TableWithJoins)
  selection : Option Expr
  returning : Option (List SelectItem)
  orderBy : List Clause
  limit : Option Expr

inductive Statement where
  | query (query : Query)
  | insert (insert : Insert)
  | update (update : Update)
  | delete (delete : Delete)
  | other (text : String)

def TableWithJoins.named (name : String) : TableWithJoins where
  relation := .table [.new name] none none [] none false [] none
  joins := []

/-- `SELECT projection FROM table WHERE condition`, without modifiers. -/
def Select.fromTable (projection : List SelectItem) (table : String) (condition : Option Expr) :
    Select where
  distinct := none
  top := none
  topBeforeDistinct := false
  projection
  into := none
  fromTables := [.named table]
  lateralViews := []
  prewhere := none
  selection := condition
  groupBy := .expressions [] []
  clusterBy := []
  distributeBy := []
  sortBy := []
  having := none
  namedWindow := []
  qualify := none
  windowBeforeQualify := false
  valueTableMode := none
  connectBy := none

/-- A query with a limit at most. -/
def Query.limited (body : SetExpr) (limit : Option Expr) : Query where
  withClause := none
  body
  orderBy := none
  limit
  limitBy := []
  offset := none
  fetch := none
  locks := []
  forClause := none
  settings := none
  formatClause := none

/-- `UPDATE table SET assignments WHERE condition`, without modifiers. -/
def Statement.updateWhere (table : String) (assignments : List Assignment) (condition : Expr) :
    Statement :=
  .update
    { table := .named table
      assignments
      fromTable := none
      selection := some condition
      returning := none
      or := none }

/-- `DELETE FROM table WHERE condition`, without modifiers. -/
def Statement.deleteWhere (table : String) (condition : Expr) : Statement :=
  .delete
    { tables := []
      fromTable := .withFromKeyword [.named table]
      usingTables := none
      selection := some condition
      returning := none
      orderBy := []
      limit := none }

end Mongres.Ast
