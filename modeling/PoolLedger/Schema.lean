import PoolLedger.Sorting

/-!
# Table layouts

The tables of the store as a database lays them out. There are two layouts of the same tables: the
one that the program declares for itself, and the one that its migration creates, which puts the
key first and lets time stamps be absent. `Schema.upgrade` and `Schema.downgrade` are the two
directions of the migration.
-/

namespace PoolLedger

/-- The types of columns. -/
inductive ColumnType where
  | varchar (length : Nat)
  | integer
  | bigInteger
  | dateTime
  | text
  | boolean
  | uuid
deriving DecidableEq, Repr

def ColumnType.name : ColumnType → String
  | varchar length => s!"VARCHAR({length})"
  | integer => "INTEGER"
  | bigInteger => "BIGINT"
  | dateTime => "DATETIME"
  | text => "TEXT"
  | boolean => "BOOLEAN"
  | uuid => "CHAR(32)"

/-- A column of a table. -/
structure Column where
  name : String
  type : ColumnType
  nullable : Bool := false
deriving DecidableEq, Repr

/-- A named list of columns: a constraint or an index. -/
structure ColumnGroup where
  name : String
  columns : List String
deriving DecidableEq, Repr

/-- A table. -/
structure Table where
  name : String
  columns : List Column
  key : List String := ["id"]
  unique : List ColumnGroup := []
  indexes : List ColumnGroup := []
deriving DecidableEq, Repr

/-- The columns that hold what a row is about, and how the row is found. -/
structure TableContent where
  name : String
  columns : List Column
  /-- Whether rows are numbered; otherwise their key is drawn at random. -/
  isNumbered : Bool := true
  unique : List ColumnGroup := []
  indexes : List ColumnGroup := []

namespace TableContent

def chainColumn : Column := { name := "chain_id", type := .varchar 50 }

def heightColumn : Column := { name := "height", type := .bigInteger }

def address (name : String) : Column := { name, type := .varchar 128 }

def amount (name : String) : Column := { name, type := .varchar 80 }

/-- A column for a text that may be absent. -/
def note (name : String) : Column := { name, type := .text, nullable := true }

def pairs : TableContent where
  name := "pairs"
  columns := [chainColumn, address "contract", address "asset0", address "asset1", address "lp"]
  unique := [⟨"uq_pairs_chain_contract", ["chain_id", "contract"]⟩]

def records : TableContent where
  name := "parsed_txs"
  columns := [chainColumn, heightColumn,
    { name := "timestamp", type := .dateTime, nullable := true },
    { name := "hash", type := .varchar 100 }, address "sender",
    { name := "type", type := .varchar 20 }, address "contract", address "asset0",
    amount "asset0_amount", address "asset1", amount "asset1_amount", address "lp",
    amount "lp_amount", amount "commission_amount", note "tax_amount", note "refund_assets",
    note "meta"]
  indexes := [⟨"ix_parsed_txs_chain_contract", ["chain_id", "contract"]⟩,
    ⟨"ix_parsed_txs_chain_height", ["chain_id", "height"]⟩, ⟨"ix_parsed_txs_hash", ["hash"]⟩]

def pools : TableContent where
  name := "pool_infos"
  columns := [chainColumn, heightColumn, address "contract", amount "asset0_amount",
    amount "asset1_amount", amount "lp_amount"]
  indexes := [⟨"ix_pool_infos_chain_height", ["chain_id", "height"]⟩]

/-- The heights up to which chains have been followed. -/
def progress : TableContent where
  name := "synced_heights"
  columns := [chainColumn, heightColumn]
  unique := [⟨"uq_synced_heights_chain_id", ["chain_id"]⟩]

def exempt : TableContent where
  name := "pair_validation_exceptions"
  columns := [chainColumn, address "contract"]
  unique := [⟨"uq_pair_validation_exceptions_chain_contract", ["chain_id", "contract"]⟩]

def failures (resolvedNullable : Bool) : TableContent where
  name := "parse_error_records"
  columns := [chainColumn, heightColumn, { name := "tx_hash", type := .varchar 100 },
    { name := "error_type", type := .varchar 50 }, note "message", note "stack_trace",
    { name := "resolved", type := .boolean, nullable := resolvedNullable }]
  isNumbered := false
  indexes := [⟨"ix_parse_error_records_tx_hash", ["tx_hash"]⟩]

/-- The two time stamps of every row. -/
def stamps (nullable : Bool) : List Column :=
  [{ name := "created_at", type := .dateTime, nullable },
    { name := "updated_at", type := .dateTime, nullable }]

/-- The table as the program declares it: its content, its key, its time stamps. -/
def declared (t : TableContent) : Table where
  name := t.name
  columns := t.columns ++ { name := "id", type := if t.isNumbered then .integer else .uuid }
    :: stamps false
  unique := t.unique
  indexes := t.indexes

/-- The table as the migration creates it: its key, its content, its time stamps. -/
def migrated (t : TableContent) : Table where
  name := t.name
  columns := { name := "id", type := if t.isNumbered then .bigInteger else .uuid }
    :: t.columns ++ stamps true
  unique := t.unique
  indexes := t.indexes

end TableContent

abbrev Schema := List Table

namespace Schema

open TableContent

/-- The tables as the program declares them. -/
def declared : Schema :=
  [pairs, records, pools, progress, exempt, failures false].map (·.declared)

/-- The tables that the migration creates. -/
def migrated : Schema :=
  [pairs, records, pools, progress, exempt, failures true].map (·.migrated)

/-- The names of the tables, in alphabetical order. -/
def names (s : Schema) : List String :=
  sortBy (· ≤ ·) (s.map (·.name))

def table? (s : Schema) (name : String) : Option Table :=
  s.find? (·.name == name)

/-- Creates the tables of the migration, unless one of them exists. -/
def upgrade (s : Schema) : Option Schema :=
  if migrated.any fun t => s.names.contains t.name then none else some (s ++ migrated)

/-- Removes the tables of the migration, unless one of them is missing. -/
def downgrade (s : Schema) : Option Schema :=
  if migrated.all fun t => s.names.contains t.name then
    some (s.filter fun t => !migrated.names.contains t.name)
  else none

end Schema

end PoolLedger
