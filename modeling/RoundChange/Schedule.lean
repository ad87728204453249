/-
# Several clients

A coordinator may be shared by clients that ask at the same time (`SharedRoundChangeManager`).
A lock around the whole of it lets one request in at a time, each to its end, so that counting
a vote and minting from the quorum it makes up are never torn apart.  What happens is therefore
said by the order in which the requests are served; who asked makes no difference
(`Coordinator.serveClients_snd`).
-/

import RoundChange.Coordinator

namespace RoundChange
namespace Coordinator

/-- Serves the requests of clients in the given order, as a `SharedRoundChangeManager` does, and
tells each client what came of its request. -/
def serveClients {κ : Type} : Coordinator → List (κ × Request) → List (κ × Reaction)
  | _, [] => []
  | c, (client, request) :: rest =>
    (client, c.serve request) :: (c.serve request).after.serveClients rest

/-- **Who asks makes no difference.** -/
theorem serveClients_snd {κ : Type} (c : Coordinator) (schedule : List (κ × Request)) :
    (c.serveClients schedule).map Prod.snd = c.reactions (schedule.map Prod.snd) := by
  induction schedule generalizing c with
  | nil => rfl
  | cons entry rest ih => exact congrArg (c.serve entry.2 :: ·) (ih _)

end Coordinator
end RoundChange
