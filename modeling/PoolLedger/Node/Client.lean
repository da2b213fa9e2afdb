import PoolLedger.Node.Basic

/-!
# Asking a node

A client sends requests to a node. A request that fails for a reason that may pass is sent again
after a pause, up to `maxAttempts` times in all. The `Line` to the node remembers what was asked and
how long the client paused.
-/

namespace PoolLedger

/-- The state of a node, what it was asked, and the pauses in seconds. -/
structure Line (σ : Type) where
  node : σ
  requests : List Request := []
  pauses : List Nat := []
deriving Repr

/-- Conversations with a node that may fail. -/
abbrev Asking (σ : Type) := ExceptT NodeError (StateM (Line σ))

/-- A node and the address below which its paths lie. -/
structure Client (σ : Type) where
  base : String
  node : Node σ

namespace Client

variable {σ : Type}

/-- An address without the slashes at its end. -/
def trimBase (base : String) : String :=
  String.ofList (base.toList.reverse.dropWhile (· = '/')).reverse

def send (c : Client σ) (request : Request) (line : Line σ) : Reply × Line σ :=
  let (reply, node) := c.node request line.node
  (reply, { line with node, requests := line.requests ++ [request] })

/-- Asks once for the value at a path. Nothing is sent to what is no address; what is found at an
address that does not say where it is does not count. -/
def ask (c : Client σ) (path : String) (height : Option Int) (line : Line σ) :
    Except NodeError Json × Line σ :=
  match Address.ofText? (trimBase c.base ++ path) with
  | none => (.error .invalidAddress, line)
  | some address =>
    if address.isAbsolute then
      let (reply, line) := c.send { address, height } line
      (reply.read path, line)
    else
      let (reply, line) := c.send { address := address.rooted, height } line
      (.error (if reply = .failure then .connection else .notAbsolute address.rooted.text), line)

def maxAttempts : Nat := 3

/-- The seconds between attempt `n` and the next: twice as many each time, within bounds. -/
def pauseAfter (n : Nat) : Nat := max 2 (min 10 (Nat.pow 2 (n - 1)))

/-- Makes attempt `n` at a question, and up to `left` more if it fails for a reason that may
pass. -/
def attempt (question : Line σ → Except NodeError Json × Line σ) (n left : Nat) (line : Line σ) :
    Except NodeError Json × Line σ :=
  match question line with
  | (.ok data, line) => (.ok data, line)
  | (.error e, line) =>
    if e.isRetried then
      match left with
      | 0 => (.error (.exhausted e), line)
      | left + 1 =>
        attempt question (n + 1) left { line with pauses := line.pauses ++ [pauseAfter n] }
    else (.error e, line)

def get (c : Client σ) (path : String) (height : Option Int) : Asking σ Json :=
  attempt (c.ask path height) 1 (maxAttempts - 1)

end Client

end PoolLedger
