import PoolLedger.Text.Quoted
import PoolLedger.Numeral

/-!
# Failures of reading

`ReadError` lists the causes for which something found in a transaction cannot be turned into a
record. Each cause has one text (`ReadError.message`) and one category (`ReadError.category`), the
name under which failed transactions are filed.
-/

namespace PoolLedger

/-- The categories under which failures are filed. -/
inductive ErrorCategory where
  | structuralMismatch
  | unknownPair
  | ambiguousTransfer
  | unsupportedChain
  | config
  | poolValidation
  | internal
deriving DecidableEq, Repr

namespace ErrorCategory

def all : List ErrorCategory :=
  [structuralMismatch, unknownPair, ambiguousTransfer, unsupportedChain, config, poolValidation,
    internal]

/-- The name of a category in stored error rows. -/
def name : ErrorCategory → String
  | structuralMismatch => "StructuralMismatchError"
  | unknownPair => "UnknownPairError"
  | ambiguousTransfer => "AmbiguousTransferError"
  | unsupportedChain => "UnsupportedChainError"
  | config => "ConfigError"
  | poolValidation => "PoolValidationError"
  | internal => "InternalParseError"

def ofName? (s : String) : Option ErrorCategory :=
  all.find? fun c => c.name == s

end ErrorCategory

/-- The kinds of sub-event that are read. -/
inductive SubEvent where
  /-- The factory announces a pair. -/
  | creation
  /-- A pair swaps, takes in or pays out. -/
  | pairAction
  /-- The share token is minted to the pair itself, which accompanies its first provision. -/
  | firstProvide
  /-- A token contract moves its own token. -/
  | tokenTransfer
  /-- The chain moves native coins. -/
  | bankTransfer
deriving DecidableEq, Repr

/-- How messages call the reader of a kind of sub-event. -/
def SubEvent.readerName : SubEvent → String
  | creation => "CreatePairMapper"
  | pairAction => "PairActionMapper"
  | firstProvide => "InitialProvideMapper"
  | tokenTransfer => "WasmTransferMapper"
  | bankTransfer => "TransferMapper"

/-- Why something found in a transaction cannot be turned into a record. -/
inductive ReadError where
  /-- The text is not a signed decimal integer. -/
  | malformedAmount (text : String)
  /-- A numeral exceeds the greatest length. -/
  | numeral (cause : Numeral.TooLong)
  /-- The text is not an amount followed by a denomination. -/
  | malformedAsset (text : String)
  /-- The text does not list exactly two assets. -/
  | malformedAssets (text : String)
  /-- A sub-event lacks its contract or its action. -/
  | tooFewAttributes (found : Nat)
  /-- A sub-event has too many or too few attributes. -/
  | wrongLength (action : String) (kind : SubEvent) (found : Nat) (expected : Int)
  /-- An attribute has no value. -/
  | emptyValue (action : String) (kind : SubEvent) (key : String)
  /-- A key occurs twice in one sub-event. -/
  | duplicateKey (action : String) (kind : SubEvent) (key : String)
  /-- A key that the action must carry is missing. -/
  | missingKey (action key : String)
  /-- The layout in force has no such pair action. -/
  | unknownAction (action : String) (known : List String)
  /-- The layout in force has no such transfer action. -/
  | unknownTransfer (action : String) (known : List String)
  /-- The strategy in force does not handle the action. -/
  | unhandledAction (action strategy : String) (known : List String)
  /-- A new pair does not name exactly two assets. -/
  | malformedPair (text : String)
  /-- The refunds of a provision list other assets than the provision. -/
  | refundOrder
  /-- No pair is registered under the contract. -/
  | unknownPair (contract : String)
  /-- Both sides of a transfer are pairs. -/
  | ambiguousTransfer (sender recipient : String)
  /-- A field that is read was not part of the sub-event. -/
  | absentField (key : String)
  /-- A sub-event has no attribute at a place that is read. -/
  | absentPosition
deriving DecidableEq, Repr

namespace ReadError

def message : ReadError → String
  | malformedAmount text => s!"amount: invalid number({text})"
  | numeral cause => cause.message
  | malformedAsset text => s!"asset: string format must be 0000AAAA, got({text})"
  | malformedAssets text => s!"assets: wrong format of assets amount({text})"
  | tooFewAttributes found => s!"pair: results length must be at least 2, found({found})"
  | wrongLength action kind found expected =>
    s!"{action}: {kind.readerName} found({found}) expected({expected})"
  | emptyValue action kind key => s!"{action}: {kind.readerName} empty value for key({key})"
  | duplicateKey action kind key => s!"{action}: {kind.readerName} duplicated key({key})"
  | missingKey action key => s!"{action}: missing key({key})"
  | unknownAction action known => s!"{action}: action must be one of {Text.quotedList known}"
  | unknownTransfer action known => s!"{action}: expected action in {Text.quotedList known}"
  | unhandledAction action strategy known =>
    s!"{action}: {strategy} strategy: action must be one of {Text.quotedList known}"
  | malformedPair text => s!"create_pair: expected 2 assets, got pair({text})"
  | refundOrder => "provide_liquidity: provide and refund assets must be in the same order"
  | unknownPair contract => s!"no pair({contract})"
  | ambiguousTransfer sender recipient =>
    s!"transfer cannot be both from and to a pair: from({sender}), to({recipient})"
  | absentField key => Text.quoted key
  | absentPosition => "list index out of range"

/-- The category under which a failure is filed. -/
def category : ReadError → ErrorCategory
  | numeral _ | absentField _ | absentPosition => .internal
  | unknownPair _ => .unknownPair
  | ambiguousTransfer _ _ => .ambiguousTransfer
  | _ => .structuralMismatch

end ReadError

end PoolLedger
