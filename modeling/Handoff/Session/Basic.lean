import Handoff.Server
import Handoff.Client

/-!
A session works named sockets, handles and listeners step by step. A call that cannot return yet is
parked under the name of its object. A handle is away while its call waits and comes back when the
call returns; the object stays busy until the call's result is asked for. A raw socket that loses
its name while its call waits is given up when the call returns. After every step the parked calls
go on as far as they can.

A session is over any world `σ` with transports `T t`, one for each `t : τ`.
-/
namespace Handoff.Session

inductive Object (τ κ : Type) where
  | raw (via : τ) (s : κ)
  | handle (via : τ) (h : Handle κ)
  | listener (via : τ) (l : Listener κ)

inductive Answer where
  | done
  | count (n : Nat)
  | bytes (data : List UInt8)
  | address (d : Option Descriptor)
  | drained (r : DrainReport)
  | delivered (r : SendReport)
  | network (cid : UInt32) (name : String)
  | text (s : String)
  | refused (e : IoError)
  | failed (f : Failure)
  /-- The call has panicked. -/
  | panicked
  /-- The call waits. -/
  | blocked
  /-- A call on the object waits, or its result has not been asked for. -/
  | busy
  | noObject
  | notPending
  deriving DecidableEq, Repr

/-- A call that waits, or its result and the connection that comes with it. -/
inductive Parked (τ κ : Type) where
  | accepting (via : τ) (s : κ) (as : String)
  | receiving (via : τ) (s : κ) (room : Nat)
  | handleAccepting (via : τ) (h : Handle κ) (as : String)
  | handleReceiving (via : τ) (h : Handle κ) (room : Nat)
  | draining (via : τ) (run : Drain κ)
  | settled (answer : Answer) (arrived : Option (String × Object τ κ))

/-- What is asked of a named object. -/
inductive Act where
  | bind (a : Descriptor)
  | listen (backlog : UInt32)
  | connect (a : Descriptor)
  | accept (as : String)
  | send (data : List UInt8)
  | recv (room : Nat)
  | shutdown (how : Direction)
  | localAddr
  | peerAddr
  | drain
  | drop
  deriving DecidableEq, Repr

inductive Step where
  | socket (id via : String)
  | handle (id via : String)
  | server (id via : String) (c : Server.Config)
  | runServer (id via : String) (c : Server.Config)
  | runClient (via : String) (c : Client.Config)
  | name (via : String)
  | on (name : String) (act : Act)
  | wait (name : String)
  deriving DecidableEq, Repr

structure State (σ τ κ : Type) where
  world : σ
  vias : List (String × τ)
  objects : List (String × Object τ κ)
  parked : List (String × Parked τ κ)

/-- A raw socket may still be used in these ways while a call on it waits. -/
def Act.passes : Act → Bool
  | send _ | shutdown _ | localAddr | bind _ | listen _ | connect _ => true
  | accept _ | recv _ | peerAddr | drain | drop => false

variable {σ τ κ : Type}

def Object.socket : Object τ κ → κ
  | raw _ s => s
  | handle _ h => h.socket
  | listener _ l => l.handle.socket

def Object.via : Object τ κ → τ
  | raw t _ | handle t _ | listener t _ => t

def Parked.isSettled : Parked τ κ → Bool
  | settled .. => true
  | _ => false

/-- The raw socket inside a call that waits. -/
def Parked.inside? : Parked τ κ → Option (τ × κ)
  | accepting t s _ | receiving t s _ => some (t, s)
  | _ => none

/-- An answer of the socket layer. A call that cannot return is told as such and changes nothing. -/
def ofIo {α : Type} (w : σ) (f : α → Answer) : Option (Except IoError α × σ) → Answer × σ
  | none => (.blocked, w)
  | some (.error e, w) => (.refused e, w)
  | some (.ok a, w) => (f a, w)

def ofHandle {α : Type} (h : Handle κ) (w : σ) (f : α → Answer) :
    Option (Except Failure α × Handle κ × σ) → Answer × Handle κ × σ
  | none => (.blocked, h, w)
  | some (.error e, h, w) => (.failed e, h, w)
  | some (.ok a, h, w) => (f a, h, w)

/-- Lets a parked call go on as far as it can. When a handle's call returns the handle comes back,
as the object given beside the call. -/
def Parked.resume (T : τ → Transport σ κ) (p : Parked τ κ) (w : σ) :
    Parked τ κ × Option (Object τ κ) × σ :=
  match p with
  | accepting t s as =>
    match (T t).call (.accept s) w with
    | none => (p, none, w)
    | some (.error e, w) => (settled (.refused e) none, none, w)
    | some (.ok (c, peer), w) => (settled (.address peer) (some (as, .raw t c)), none, w)
  | receiving t s room =>
    match (T t).call (.recv s room) w with
    | none => (p, none, w)
    | some (.error e, w) => (settled (.refused e) none, none, w)
    | some (.ok data, w) => (settled (.bytes data) none, none, w)
  | handleAccepting t h as =>
    match h.accept (T t) w with
    | none => (p, none, w)
    | some (.error f, w) => (settled (.failed f) none, some (.handle t h), w)
    | some (.ok (c, peer), w) =>
      (settled (.address peer) (some (as, .handle t c)), some (.handle t h), w)
  | handleReceiving t h room =>
    match h.recv (T t) room w with
    | none => (p, none, w)
    | some (.error f, h, w) => (settled (.failed f) none, some (.handle t h), w)
    | some (.ok data, h, w) => (settled (.bytes data) none, some (.handle t h), w)
  | draining t run =>
    let (run, w) := run.advance (T t) w
    match run.exit? with
    | none => (draining t run, none, w)
    | some (.returned (.error f)) => (settled (.failed f) none, none, w)
    | some (.returned (.ok r)) => (settled (.drained r) none, none, w)
    | some .panicked => (settled .panicked none, none, w)
  | settled .. => (p, none, w)

namespace State

def object? (st : State σ τ κ) (name : String) : Option (Object τ κ) := st.objects.lookup name

/-- The handle of a name, unless it is away. -/
def handle? (st : State σ τ κ) (name : String) : Option (Handle κ) :=
  match st.object? name with
  | some (.handle _ h) => some h
  | _ => none

def remove (st : State σ τ κ) (name : String) : State σ τ κ :=
  { st with objects := st.objects.filter fun p => p.1 ≠ name }

/-- Puts what an object has become in its place, and the world. -/
def update (st : State σ τ κ) (name : String) (o : Object τ κ) (w : σ) : State σ τ κ :=
  { st with world := w, objects := (name, o) :: (st.remove name).objects }

/-- A step that starts from a transport. -/
def via (st : State σ τ κ) (name : String) (f : τ → Answer × State σ τ κ) :
    Answer × State σ τ κ :=
  match st.vias.lookup name with
  | none => (.noObject, st)
  | some t => f t

variable [DecidableEq κ]

def isHeld (st : State σ τ κ) (s : κ) : Bool :=
  st.parked.any fun p => p.2.inside?.map Prod.snd == some s

def denotes (st : State σ τ κ) (name : String) (s : κ) : Bool :=
  (st.object? name).map Object.socket == some s

/-- Gives an object a name. What had the name before is given up, unless a call holds on to it. -/
def place (T : τ → Transport σ κ) (st : State σ τ κ) (name : String) (o : Object τ κ) :
    State σ τ κ :=
  let st :=
    match st.object? name with
    | none => st
    | some old =>
      if st.isHeld old.socket then st.remove name
      else { st.remove name with world := (T old.via).release old.socket st.world }
  { st with objects := (name, o) :: st.objects }

/-- Names what arrives with a result, if anything does. -/
def receive (T : τ → Transport σ κ) (st : State σ τ κ) : Option (String × Object τ κ) → State σ τ κ
  | none => st
  | some (name, o) => st.place T name o

/-- Gives up the raw socket of a call that has returned, if its name is gone. -/
def letGo (T : τ → Transport σ κ) (st : State σ τ κ) (name : String) (before after : Parked τ κ) :
    State σ τ κ :=
  match before.inside? with
  | none => st
  | some (t, s) =>
    if after.isSettled && !st.denotes name s then
      { st with world := (T t).release s st.world }
    else st

/-- Lets one call go on, whose handle gets its name back when it returns. -/
def resume (T : τ → Transport σ κ) (st : State σ τ κ) (name : String) (p : Parked τ κ) :
    Parked τ κ × State σ τ κ :=
  let (q, back, w) := p.resume T st.world
  let st := { st with world := w }.letGo T name p q
  (q, st.receive T (back.map fun o => (name, o)))

/-- Starts a call that may wait. -/
def start (T : τ → Transport σ κ) (st : State σ τ κ) (name : String) (p : Parked τ κ) :
    Answer × State σ τ κ :=
  match st.resume T name p with
  | (.settled answer arrived, st) => (answer, st.receive T arrived)
  | (p, st) => (.blocked, { st with parked := st.parked ++ [(name, p)] })

def round (T : τ → Transport σ κ) (st : State σ τ κ) : State σ τ κ :=
  st.parked.foldl
    (fun st (name, p) =>
      let (p, st) := st.resume T name p
      { st with parked := st.parked ++ [(name, p)] })
    { st with parked := [] }

/-- Rounds over the parked calls, enough for each to make way for the others. -/
def rounds (T : τ → Transport σ κ) : Nat → State σ τ κ → State σ τ κ
  | 0, st => st
  | n + 1, st => rounds T n (st.round T)

/-- Lets all parked calls go on. -/
def settle (T : τ → Transport σ κ) (st : State σ τ κ) : State σ τ κ :=
  st.rounds T ((st.parked.filter fun p => !p.2.isSettled).length + 1)

def onRaw (T : τ → Transport σ κ) (st : State σ τ κ) (name : String) (t : τ) (s : κ)
    (act : Act) : Answer × State σ τ κ :=
  let io {α : Type} (q : Request κ α) (f : α → Answer) : Answer × State σ τ κ :=
    let (answer, w) := ofIo st.world f ((T t).call q st.world)
    (answer, { st with world := w })
  match act with
  | .bind a => io (.bind s a) fun _ => .done
  | .listen backlog => io (.listen s backlog) fun _ => .done
  | .connect a => io (.connect s a) fun _ => .done
  | .accept as => st.start T name (.accepting t s as)
  | .send data => io (.send s data) .count
  | .recv room => st.start T name (.receiving t s room)
  | .shutdown how => io (.shutdown s how) fun _ => .done
  | .localAddr => io (.localAddr s) fun d => .address d
  | .drop => (.done, { st.remove name with world := (T t).release s st.world })
  | .peerAddr | .drain => (.noObject, st)

def onHandle (T : τ → Transport σ κ) (st : State σ τ κ) (name : String) (t : τ) (h : Handle κ)
    (act : Act) : Answer × State σ τ κ :=
  let op {α : Type} (r : Option (Except Failure α × Handle κ × σ)) (f : α → Answer) :
      Answer × State σ τ κ :=
    let (answer, h, w) := ofHandle h st.world f r
    (answer, st.update name (.handle t h) w)
  match act with
  | .bind a => op (h.bind (T t) a st.world) fun _ => .done
  | .listen backlog => op (h.listen (T t) backlog st.world) fun _ => .done
  | .connect a => op (h.connect (T t) a st.world) fun _ => .done
  | .accept as => (st.remove name).start T name (.handleAccepting t h as)
  | .send data => op ((h.send (T t) data st.world).map fun (r, w) => (r, h, w)) .count
  | .recv room => (st.remove name).start T name (.handleReceiving t h room)
  | .shutdown _ => op (h.shutdown (T t) st.world) fun _ => .done
  | .localAddr =>
    match h.localAddr (T t) st.world with
    | none => (.blocked, st)
    | some (d, w) => (.address d, { st with world := w })
  | .peerAddr => (.address h.peer, st)
  | .drop => (.done, { st.remove name with world := (T t).release h.socket st.world })
  | .drain => (.noObject, st)

/-- An act on a listener. Draining uses it up. -/
def onListener (T : τ → Transport σ κ) (st : State σ τ κ) (name : String) (t : τ)
    (l : Listener κ) (act : Act) : Answer × State σ τ κ :=
  match act with
  | .drain => (st.remove name).start T name (.draining t (.accepting l))
  | .drop => (.done, { st.remove name with world := (T t).release l.handle.socket st.world })
  | _ => (.noObject, st)

/-- An act on a named object. That the object is busy is looked at before whether there is one. -/
def onObject (T : τ → Transport σ κ) (st : State σ τ κ) (name : String) (act : Act) :
    Answer × State σ τ κ :=
  match (st.parked.lookup name).isSome, st.object? name with
  | true, some (.raw t s) => if act.passes then st.onRaw T name t s act else (.busy, st)
  | true, _ => (.busy, st)
  | false, none => (.noObject, st)
  | false, some (.raw t s) => st.onRaw T name t s act
  | false, some (.handle t h) => st.onHandle T name t h act
  | false, some (.listener t l) => st.onListener T name t l act

def tell (T : τ → Transport σ κ) (st : State σ τ κ) (name : String) : Answer × State σ τ κ :=
  match st.parked.lookup name with
  | none => (.notPending, st)
  | some (.settled answer arrived) =>
    let st := { st with parked := st.parked.filter fun p => p.1 ≠ name }
    (answer, st.receive T arrived)
  | some _ => (.blocked, st)

/-- Takes a step, the parked calls left where they are. -/
def perform (T : τ → Transport σ κ) (st : State σ τ κ) : Step → Answer × State σ τ κ
  | .socket id v => st.via v fun t =>
    match (T t).call .socket st.world with
    | none => (.blocked, st)
    | some (.error e, w) => (.refused e, { st with world := w })
    | some (.ok s, w) => (.done, { st with world := w }.place T id (.raw t s))
  | .handle id v => st.via v fun t =>
    match Handle.create (T t) st.world with
    | none => (.blocked, st)
    | some (.error f, w) => (.failed f, { st with world := w })
    | some (.ok h, w) => (.done, { st with world := w }.place T id (.handle t h))
  | .server id v c => st.via v fun t =>
    match Server.listen (T t) c st.world with
    | none => (.blocked, st)
    | some (.error f, w) => (.failed f, { st with world := w })
    | some (.ok l, w) => (.address l.own, { st with world := w }.place T id (.listener t l))
  | .runServer id v c => st.via v fun t =>
    match Server.listen (T t) c st.world with
    | none => (.blocked, st)
    | some (.error f, w) => (.failed f, { st with world := w })
    | some (.ok l, w) => { st with world := w }.start T id (.draining t (.accepting l))
  | .runClient v c => st.via v fun t =>
    match Client.run (T t) c st.world with
    | none => (.blocked, st)
    | some (.error f, w) => (.failed f, { st with world := w })
    | some (.ok r, w) => (.delivered r, { st with world := w })
  | .name v => st.via v fun t => (.text (T t).name, st)
  | .on name act => st.onObject T name act
  | .wait name => st.tell T name

/-- Takes a step and lets the parked calls go on. -/
def step (T : τ → Transport σ κ) (st : State σ τ κ) (s : Step) : Answer × State σ τ κ :=
  let (answer, st) := st.perform T s
  (answer, st.settle T)

end State
end Handoff.Session
