import PoolLedger.Node.Basic

/-!
# Scripted nodes

A scripted node has a list of replies for each path. It gives them one after another and then
repeats the last; a path without replies is not found.
-/

namespace PoolLedger

/-- The replies that are left, by path. -/
abbrev Script := List (String × List Reply)

namespace Script

/-- The reply to a request for an unknown path. -/
def notFound : Reply :=
  .response 404 (Json.obj [("message", .str "not found")]).write

/-- The next reply for a path, and the script after it. -/
def next (path : String) : Script → Reply × Script
  | [] => (notFound, [])
  | (p, replies) :: rest =>
    if p = path then
      match replies with
      | [] => (notFound, (p, []) :: rest)
      | [last] => (last, (p, [last]) :: rest)
      | reply :: more => (reply, (p, more) :: rest)
    else
      let (reply, rest) := next path rest
      (reply, (p, replies) :: rest)

def node : Node Script := fun request script =>
  script.next request.address.target

end Script

end PoolLedger
