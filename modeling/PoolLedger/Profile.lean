import PoolLedger.Reading.Transfer

/-!
# Deployments and their profiles

A deployment is an exchange on one kind of chain. It fixes where contract events are logged, how
they are laid out, and what they mean, in part by height. A `Profile` adds the chain and the factory
whose pairs are followed; the factory's address is never empty, which is part of the type.
-/

namespace PoolLedger

/-- The exchange protocols. -/
inductive Protocol where
  | terraswap
  | dezswap
  | starfleit
deriving DecidableEq, Repr

namespace Protocol

def all : List Protocol := [terraswap, dezswap, starfleit]

/-- The name of a protocol in settings. -/
def name : Protocol → String
  | terraswap => "terraswap"
  | dezswap => "dezswap"
  | starfleit => "starfleit"

def ofName? (s : String) : Option Protocol :=
  all.find? fun p => p.name == s

end Protocol

/-- The networks of a chain. -/
inductive Network where
  | mainnet
  | testnet
deriving DecidableEq, Repr

/-- An exchange on one kind of chain. -/
inductive Deployment where
  /-- Dezswap on XPLA. -/
  | dezswap (network : Network)
  /-- Starfleit on Fetch.ai. -/
  | starfleit (network : Network)
  /-- Terraswap on Terra 2, and on any chain without a deployment of its own. -/
  | phoenix
  /-- Terraswap on columbus-4. -/
  | columbusFour
  /-- Terraswap on columbus-5. -/
  | columbusFive
deriving DecidableEq, Repr

namespace Deployment

def protocol : Deployment → Protocol
  | dezswap _ => .dezswap
  | starfleit _ => .starfleit
  | _ => .terraswap

/-- The first height at which the pairs log refunds, where they were changed in place. -/
def upgradeHeight? : Deployment → Option Int
  | dezswap .mainnet => some 3166247
  | dezswap .testnet => some 2975818
  | starfleit _ => some 11543129
  | _ => none

/-- Whether the pairs are upgraded at a height, where they were changed in place. -/
def isUpgraded? (d : Deployment) (height : Int) : Option Bool :=
  d.upgradeHeight?.map fun upgrade => upgrade ≤ height

/-- The type of the entries that hold contract events. -/
def eventType : Deployment → EventType
  | columbusFour => .fromContract
  | _ => .wasm

/-- The key that names the contract of a sub-event. -/
def contractKey : Deployment → String
  | columbusFour => plainContractKey
  | _ => PoolLedger.contractKey

/-- The prefix of the addresses of token contracts. -/
def tokenPrefix : Deployment → String
  | dezswap _ => "xpla1"
  | starfleit _ => "fetch1"
  | _ => "terra1"

/-- The order into which the attributes of bank transfers are put, where chains log them in any. -/
def transferOrder? : Deployment → Option (List String)
  | phoenix | columbusFive => some sortedTransferKeys
  | _ => none

/-- Whether first provisions are read. -/
def hasFirstProvide : Deployment → Bool
  | columbusFour => false
  | _ => true

/-- The height from which the test network of Dezswap adds an index to every event. -/
def indexedHeight : Int := 10187000

/-- The number of attributes that the chain adds to every event. -/
def added (d : Deployment) (height : Int) : Int :=
  if d = dezswap .testnet ∧ indexedHeight ≤ height then 1 else 0

/-- What the actions of pairs mean at a height. -/
def strategy (d : Deployment) (height : Int) : Strategy :=
  match d with
  | phoenix => .plain
  | columbusFour => .feeDeducting
  | columbusFive => .taxedReconciling d.tokenPrefix
  | d => if d.isUpgraded? height = some true then .reconciling d.tokenPrefix else .plain

def pairLayout (d : Deployment) (height : Int) : Layout :=
  match d with
  | phoenix => .pair
  | columbusFour => .plainPair
  | columbusFive => .taxedPair
  | d =>
    (if d.isUpgraded? height = some true then Layout.refundingPair else Layout.pair).unordered

def tokenLayout : Deployment → Layout
  | phoenix | columbusFive => .token
  | columbusFour => .plainToken
  | _ => Layout.token.unordered

end Deployment

/-! ## Chains -/

/-- The part of a chain's name before the first hyphen. -/
def chainPrefix (chainId : String) : String :=
  String.ofList (chainId.toList.takeWhile (· ≠ '-'))

/-- The factories of Terraswap by chain, or by the front part of its name outside the columbus
chains. -/
def terraswapFactories : List (String × String) :=
  [("phoenix", "terra1466nf3zuxpya8q9emxukd7vftaf6h4psr0a07srl5zw74zh84yjqxl5qul"),
    ("pisco", "terra1jha5avc92uerwp9qzx3flvwnyxs3zax2rrm6jkcedy2qvzwd2k7qk7yxcl"),
    ("columbus-4", "terra1ulgw0td86nvs4wtpsc80thv6xelk76ut7a7apj"),
    ("columbus-5", "terra1jkndu9w5attpz09ut02sgey5dd3e8sq5watzm0")]

def terraswapFactory? (chainId : String) : Option String :=
  let start := chainPrefix chainId
  terraswapFactories.lookup (if start = "columbus" then chainId else start)

namespace Deployment

def factory? (d : Deployment) (chainId : String) : Option String :=
  match d with
  | dezswap .mainnet => some "xpla1j33xdql0h4kpgj2mhggy4vutw655u90z7nyj4afhxgj4v5urtadq44e3vd"
  | dezswap .testnet => some "xpla1j4kgjl6h4rt96uddtzdxdu39h0mhn4vrtydufdrk4uxxnrpsnw2qug2yx2"
  | starfleit .mainnet => some "fetch1slz6c85kxp4ek5ufmcakfhnscv9r2snlemxgwz6cjhklgh7v2hms8rgt5v"
  | starfleit .testnet => some "fetch1kmag3937lrl6dtsv29mlfsedzngl9egv5c3apnr468q50gu04zrqea398u"
  | _ => terraswapFactory? chainId

def dezswapOn? (chainId : String) : Option Deployment :=
  [("dimension_37", dezswap .mainnet), ("cube_47", dezswap .testnet)].lookup (chainPrefix chainId)

def starfleitOn? (chainId : String) : Option Deployment :=
  [("fetchhub", starfleit .mainnet), ("dorado", starfleit .testnet)].lookup (chainPrefix chainId)

def terraswapOn (chainId : String) : Deployment :=
  if chainId = "columbus-4" then columbusFour
  else if chainId = "columbus-5" then columbusFive
  else phoenix

/-- The deployment of Terraswap on a chain that is known to have one. -/
def terraswapOn? (chainId : String) : Option Deployment :=
  let start := chainPrefix chainId
  if chainId = "columbus-4" || chainId = "columbus-5" || start = "phoenix" || start = "pisco" then
    some (terraswapOn chainId)
  else none

end Deployment

/-! ## Profiles -/

/-- Why there is no profile. -/
inductive ProfileError where
  | unknownProtocol (name : String)
  | unsupportedChain (chainId : String)
  | noFactory (protocol : Protocol) (chainId : String)
deriving DecidableEq, Repr

namespace ProfileError

def message : ProfileError → String
  | unknownProtocol name => s!"unsupported dex type: {name}"
  | unsupportedChain chainId => s!"chain id is not supported: {chainId}"
  | noFactory protocol chainId => s!"no {protocol.name} factory address for chain({chainId})"

/-- The category under which a failure is filed. -/
def category : ProfileError → ErrorCategory
  | unsupportedChain _ => .unsupportedChain
  | _ => .config

end ProfileError

/-- A deployment on a chain, and the factory whose pairs are followed. -/
structure Profile where
  deployment : Deployment
  chainId : String
  factory : String
  factory_ne : factory ≠ ""
deriving DecidableEq, Repr

namespace Profile

/-- The profile of a deployment on a chain; without an address of its own it follows the
deployment's factory. -/
def ofDeployment (d : Deployment) (chainId : String) (factory : Option String) :
    Except ProfileError Profile :=
  let address := (factory.filter (· ≠ "")).getD ((d.factory? chainId).getD "")
  if h : address = "" then .error (.noFactory d.protocol chainId)
  else .ok { deployment := d, chainId, factory := address, factory_ne := h }

def terraswap (chainId : String) (factory : Option String) : Except ProfileError Profile :=
  ofDeployment (.terraswapOn chainId) chainId factory

def deploymentOn? (protocol : Protocol) (chainId : String) : Option Deployment :=
  match protocol with
  | .terraswap => Deployment.terraswapOn? chainId
  | .dezswap => Deployment.dezswapOn? chainId
  | .starfleit => Deployment.starfleitOn? chainId

def build (protocol chainId : String) (factory : Option String) : Except ProfileError Profile :=
  match Protocol.ofName? protocol with
  | none => .error (.unknownProtocol protocol)
  | some p =>
    match deploymentOn? p chainId with
    | none => .error (.unsupportedChain chainId)
    | some d => ofDeployment d chainId factory

/-! ## The rules and readers in force -/

/-- The type of the entries that hold contract events. -/
def eventKind (p : Profile) : String := p.deployment.eventType.name

def creationRule (p : Profile) : Rule :=
  .creation p.factory p.eventKind p.deployment.contractKey

/-- The rule of the actions of the given pairs. -/
def pairRule (p : Profile) (pairs : List String) : Rule :=
  .pairAction pairs p.eventKind p.deployment.contractKey

def tokenRule (p : Profile) : Rule :=
  .tokenTransfer p.eventKind p.deployment.contractKey

def bankRule (p : Profile) : Rule :=
  match p.deployment.transferOrder? with
  | some _ => .bankTransfer sortedTransferKeys
  | none => .bankTransfer transferKeys

def pairReader (p : Profile) (height : Int) : PairReader where
  strategy := p.deployment.strategy height
  layout := p.deployment.pairLayout height
  added := p.deployment.added height

def tokenReader (p : Profile) (height : Int) : TokenReader where
  layout := p.deployment.tokenLayout
  added := p.deployment.added height

/-- An entry with its attributes in the order in which bank transfers are read. -/
def prepare (p : Profile) (e : Entry) : Entry :=
  match p.deployment.transferOrder? with
  | some keys =>
    if e.kind = EventType.transfer.name then { e with attributes := arrange keys e.attributes }
    else e
  | none => e

end Profile

end PoolLedger
