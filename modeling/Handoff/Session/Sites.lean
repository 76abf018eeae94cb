import Handoff.Loopback.Site
import Handoff.Session.Basic

/-!
Sessions over loopback networks. Transports are opened by name: each on a network of its own, or as
another for the network of one that is there.
-/
namespace Handoff.Session

open Loopback

abbrev SiteState := State Site Nat SocketId

/-- A step of any session, or one that concerns the networks themselves. -/
inductive SiteStep where
  | plain (s : Step)
  | opened (id : String) (cid : UInt32)
  | shared (id of : String)
  | endpoints (via : String)
  deriving DecidableEq, Repr

namespace SiteState

/-- One network, and the transport `t` for it. -/
def ofCid (cid : UInt32) : SiteState :=
  { world := Site.ofCid cid, vias := [("t", 0)], objects := [], parked := [] }

/-- The number of endpoints in use in the first network. -/
def bound (st : SiteState) : Nat := st.world.boundEndpoints 0

def nameVia (st : SiteState) (id : String) (i : Nat) : Answer × SiteState :=
  (.network (st.world.cid i) (Site.transport i).name, { st with vias := (id, i) :: st.vias })

def step (st : SiteState) : SiteStep → Answer × SiteState
  | .plain s => State.step Site.transport st s
  | .opened id cid =>
    let i := st.world.networks.length
    SiteState.nameVia { st with world := st.world.add cid } id i
  | .shared id of => State.via st of fun i => st.nameVia id i
  | .endpoints v => State.via st v fun i => (.count (st.world.boundEndpoints i), st)

end SiteState
end Handoff.Session
