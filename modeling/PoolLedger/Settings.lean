import PoolLedger.Profile
import PoolLedger.Settings.Value
import PoolLedger.Sync.Basic

/-!
# Settings

The settings say which exchange on which chain is followed, where its node and the database are, and
when pools are stored and validated. Each has a default; given ones are checked against their types,
and texts that denote a number or a truth value are taken for it.
-/

namespace PoolLedger

/-- All settings. -/
structure Settings where
  databaseHost : String := "localhost"
  databasePort : Int := 5432
  databaseUser : String := "postgres"
  databasePassword : String := "postgres"
  databaseName : String := "dexparser"
  chainId : String := "dimension_37"
  protocol : String := "dezswap"
  /-- The factory whose pairs are followed; the empty one stands for that of the deployment. -/
  factory : String := ""
  nodeUrl : String := "http://localhost:1317"
  policy : Policy := {}
  debug : Bool := false
deriving DecidableEq, Repr

namespace Settings

def databaseUrl (s : Settings) : String :=
  s!"postgresql+asyncpg://{s.databaseUser}:{s.databasePassword}@{s.databaseHost}:{s.databasePort}/{s.databaseName}"

def profile (s : Settings) : Except ProfileError Profile :=
  Profile.build s.protocol s.chainId (some s.factory)

/-! ## Reading settings -/

/-- The settings with one of them changed. Nothing is changed by a value of the wrong type, or
under an unknown name. -/
def set? (s : Settings) (name : String) (v : Json) : Option Settings :=
  match name with
  | "db_host" => do return { s with databaseHost := ← text? v }
  | "db_port" => do return { s with databasePort := ← integer? v }
  | "db_user" => do return { s with databaseUser := ← text? v }
  | "db_password" => do return { s with databasePassword := ← text? v }
  | "db_name" => do return { s with databaseName := ← text? v }
  | "chain_id" => do return { s with chainId := ← text? v }
  | "dex_type" => do return { s with protocol := ← text? v }
  | "factory_address" => do return { s with factory := ← text? v }
  | "lcd_url" => do return { s with nodeUrl := ← text? v }
  | "lcd_rate_per_second" => if isNumeric v then some s else none
  | "same_height_tolerance" => do
    return { s with policy := { s.policy with tolerance := ← integer? v } }
  | "pool_snapshot_interval" => do
    return { s with policy := { s.policy with snapshotInterval := ← integer? v } }
  | "validation_interval" => do
    return { s with policy := { s.policy with validationInterval := ← integer? v } }
  | "debug" => do return { s with debug := ← truth? v }
  | _ => none

/-- The first of the members of each name. The case of the letters in a name does not count. -/
def named? : Members → Option (List (String × Json))
  | [] => some []
  | (key, v) :: rest => do
    let name := lower (← key.toString?)
    return (name, v) :: (← named? rest).filter (·.1 ≠ name)

/-- The settings with the given ones in place of the defaults. -/
def ofMembers? (ms : Members) : Option Settings := do
  (← named? ms).foldlM (fun s m => s.set? m.1 m.2) {}

end Settings

end PoolLedger
