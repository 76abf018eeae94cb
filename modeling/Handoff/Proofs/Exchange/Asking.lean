import Handoff.Handle

/-!
What can be asked of a handle, over any transport. A transport that records its calls shows which
ones a demand takes: none if the stage does not admit it, and otherwise calls on the socket of the
handle, of which the last decides. The main statement is `ask_recorded`.
-/
namespace Handoff

/-- What is asked of a handle. -/
inductive Demand where
  | bind (address : Descriptor)
  | listen (backlog : UInt32)
  | accept
  | connect (address : Descriptor)
  | send (data : List UInt8)
  | recv (room : Nat)
  | shutdown
  deriving DecidableEq, Repr

def Demand.operation : Demand → Operation
  | bind _ => .bind
  | listen _ => .listen
  | accept => .accept
  | connect _ => .connect
  | send _ => .send
  | recv _ => .recv
  | shutdown => .shutdown

variable {σ κ : Type}

namespace Handle

/-- Asks a handle for something. Afterwards there is the handle in its place, and behind it the one
it has accepted. -/
def ask (T : Transport σ κ) (h : Handle κ) (d : Demand) (w : σ) :
    Option (Except Failure Unit × List (Handle κ) × σ) :=
  match d with
  | .bind a => (h.bind T a w).map fun (r, h, w) => (r, [h], w)
  | .listen backlog => (h.listen T backlog w).map fun (r, h, w) => (r, [h], w)
  | .accept =>
    (h.accept T w).map fun (r, w) =>
      (r.map fun _ => (), h :: (r.toOption.map Prod.fst).toList, w)
  | .connect a => (h.connect T a w).map fun (r, h, w) => (r, [h], w)
  | .send data => (h.send T data w).map fun (r, w) => (r.map fun _ => (), [h], w)
  | .recv room => (h.recv T room w).map fun (r, h, w) => (r.map fun _ => (), [h], w)
  | .shutdown => (h.shutdown T w).map fun (r, h, w) => (r, [h], w)

/-- What the stage does not admit fails before the socket is asked. -/
theorem ask_of_not_admitted {T : Transport σ κ} {h : Handle κ} {d : Demand}
    (hd : d.operation.admittedIn h.stage = false) (w : σ) :
    h.ask T d w = some (.error (h.illegal d.operation), [h], w) := by
  cases d <;> simp only [Demand.operation] at hd <;>
    simp [ask, bind, listen, accept, connect, send, recv, shutdown, hd, Demand.operation,
      Except.map, Except.toOption]

end Handle

/-! ### What a demand comes to -/

namespace Demand

abbrev Answer (κ : Type) : Demand → Type
  | bind _ | listen _ | connect _ | shutdown => Unit
  | accept => κ × Descriptor
  | send _ => Nat
  | recv _ => List UInt8

def request (s : κ) : (d : Demand) → Request κ (d.Answer κ)
  | bind a => .bind s a
  | listen backlog => .listen s backlog
  | accept => .accept s
  | connect a => .connect s a
  | send data => .send s data
  | recv room => .recv s room
  | shutdown => .shutdown s .both

/-- Whether an interrupted request is made again. -/
def repeats : Demand → Bool
  | send _ | recv _ => true
  | bind _ | listen _ | accept | connect _ | shutdown => false

end Demand

/-- The answer to a demand: to its request, or to the last of its requests. -/
def Transport.answer (T : Transport σ κ) (s : κ) (w : σ) :
    (d : Demand) → Option (Except IoError (d.Answer κ) × σ)
  | .bind a => T.call (.bind s a) w
  | .listen backlog => T.call (.listen s backlog) w
  | .accept => T.call (.accept s) w
  | .connect a => T.call (.connect s a) w
  | .send data => T.sendThrough s data w
  | .recv room => T.recvThrough s room w
  | .shutdown => T.call (.shutdown s .both) w

namespace Handle

/-- The failure of a demand that is not granted. -/
def blame (h : Handle κ) (e : IoError) : Demand → Failure
  | .bind a => .bind a e
  | .listen backlog => .listen h.ownOrAny backlog e
  | .accept => .accept h.ownOrAny e
  | .connect a => .connect a e
  | .send _ => .send h.peerOrAny e
  | .recv _ => .recv h.peerOrAny e
  | .shutdown => .shutdown h.peerOrAny e

/-- The handle after a demand that is not granted. -/
def kept (h : Handle κ) : Demand → Handle κ
  | .recv _ => h.draining
  | .bind _ | .listen _ | .accept | .connect _ | .send _ | .shutdown => h

/-- The handle after a demand that is granted. -/
def moved (h : Handle κ) : Demand → Handle κ
  | .bind a => { h with stage := .bound, own := some a }
  | .listen _ => { h with stage := .listening }
  | .connect a => { h with stage := .connected, peer := some a }
  | .recv _ => h.draining
  | .shutdown => { h with stage := .shutdown }
  | .accept | .send _ => h

/-- The handle that a demand brings. -/
def taken (h : Handle κ) : (d : Demand) → d.Answer κ → List (Handle κ)
  | .accept, (s, peer) => [⟨s, .accepted, h.own, some peer⟩]
  | .bind _, _ | .listen _, _ | .connect _, _ | .send _, _ | .recv _, _ | .shutdown, _ => []

/-- What an answer makes of a demand. -/
def settle (h : Handle κ) (d : Demand) :
    Except IoError (d.Answer κ) → Except Failure Unit × List (Handle κ)
  | .error e => (.error (h.blame e d), [h.kept d])
  | .ok a => (.ok (), h.moved d :: h.taken d a)

/-- What the stage admits is settled by the answer of the transport. -/
theorem ask_of_admitted {T : Transport σ κ} {h : Handle κ} {d : Demand}
    (hd : d.operation.admittedIn h.stage = true) (w : σ) :
    h.ask T d w = (T.answer h.socket w d).map fun (r, w) =>
      ((h.settle d r).1, (h.settle d r).2, w) := by
  cases d
  all_goals simp only [Demand.operation] at hd
  case bind a =>
    rw [ask, bind, if_pos hd, Transport.answer]
    rcases T.call (.bind h.socket a) w with _ | ⟨_ | _, w⟩ <;> rfl
  case listen backlog =>
    rw [ask, listen, if_pos hd, Transport.answer]
    rcases T.call (.listen h.socket backlog) w with _ | ⟨_ | _, w⟩ <;> rfl
  case accept =>
    rw [ask, accept, if_pos hd, Transport.answer]
    rcases T.call (.accept h.socket) w with _ | ⟨_ | _, w⟩ <;> rfl
  case connect a =>
    rw [ask, connect, if_pos hd, Transport.answer]
    rcases T.call (.connect h.socket a) w with _ | ⟨_ | _, w⟩ <;> rfl
  case send data =>
    rw [ask, send, if_pos hd, Transport.answer]
    rcases T.sendThrough h.socket data w with _ | ⟨_ | _, w⟩ <;> rfl
  case recv room =>
    rw [ask, recv, if_pos hd, Transport.answer]
    rcases T.recvThrough h.socket room w with _ | ⟨_ | _, w⟩ <;> rfl
  case shutdown =>
    rw [ask, shutdown, if_pos hd, Transport.answer]
    rcases T.call (.shutdown h.socket .both) w with _ | ⟨_ | _, w⟩ <;> rfl

end Handle

/-! ### Recorded calls -/

inductive Record (κ : Type) where
  | socket (answer : Except IoError κ)
  | bind (s : κ) (address : Descriptor) (answer : Except IoError Unit)
  | listen (s : κ) (backlog : UInt32) (answer : Except IoError Unit)
  | accept (s : κ) (answer : Except IoError (κ × Descriptor))
  | connect (s : κ) (address : Descriptor) (answer : Except IoError Unit)
  | send (s : κ) (data : List UInt8) (answer : Except IoError Nat)
  | recv (s : κ) (room : Nat) (answer : Except IoError (List UInt8))
  | shutdown (s : κ) (direction : Direction) (answer : Except IoError Unit)
  | localAddr (s : κ) (answer : Except IoError Descriptor)

def Request.record {α : Type} : Request κ α → Except IoError α → Record κ
  | socket, r => .socket r
  | bind s a, r => .bind s a r
  | listen s backlog, r => .listen s backlog r
  | accept s, r => .accept s r
  | connect s a, r => .connect s a r
  | send s data, r => .send s data r
  | recv s room, r => .recv s room r
  | shutdown s direction, r => .shutdown s direction r
  | localAddr s, r => .localAddr s r

/-- The records of a request that is made again after each of some errors. -/
def Request.records {α : Type} (q : Request κ α) (es : List IoError) (r : Except IoError α) :
    List (Record κ) := es.map (fun e => q.record (.error e)) ++ [q.record r]

theorem Request.records_cons {α : Type} (q : Request κ α) (e : IoError) (es : List IoError)
    (r : Except IoError α) : q.records (e :: es) r = [q.record (.error e)] ++ q.records es r := rfl

namespace Transport

/-- The same transport, with a record of the calls that it has answered. -/
def recorded (T : Transport σ κ) : Transport (σ × List (Record κ)) κ where
  name := T.name
  call q w :=
    match T.call q w.1 with
    | none => none
    | some (r, w') => some (r, w', w.2 ++ [q.record r])
  release s w := (T.release s w.1, w.2)
  budget w := T.budget w.1
  budget_recv h hb := by
    split at h
    · cases h
    · cases h
      exact T.budget_recv ‹_› hb
  budget_recv_interrupted h hi := by
    split at h
    · cases h
    · cases h
      exact T.budget_recv_interrupted ‹_› hi
  budget_send_interrupted h hi := by
    split at h
    · cases h
    · cases h
      exact T.budget_send_interrupted ‹_› hi

variable {T : Transport σ κ} {α : Type} {q : Request κ α}

theorem recorded_call (q : Request κ α) (w : σ) (log : List (Record κ)) :
    T.recorded.call q (w, log) =
      match T.call q w with
      | none => none
      | some (r, w') => some (r, w', log ++ [q.record r]) := rfl

/-- A request with a record and without one: the answers are the same, and the record tells how
often the request was made. -/
inductive Alike (q : Request κ α) (P : List IoError → Except IoError α → Prop)
    (log : List (Record κ)) :
    Option (Except IoError α × σ × List (Record κ)) → Option (Except IoError α × σ) → Prop where
  | blocked : Alike q P log none none
  | answered (es : List IoError) {r : Except IoError α} {w : σ} (h : P es r) :
      Alike q P log (some (r, w, log ++ q.records es r)) (some (r, w))

/-- Which errors an interrupted request is made again after. -/
structure Persists (es : List IoError) (r : Except IoError α) : Prop where
  interrupted : ∀ e ∈ es, e.isInterrupted = true
  settled : ∀ e, r = .error e → e.isInterrupted = false

/-- Makes a request once, and goes on as told if it is interrupted. -/
def tryThen (T : Transport σ κ) (q : Request κ α) (f : σ → Option (Except IoError α × σ))
    (w : σ) : Option (Except IoError α × σ) :=
  match T.call q w with
  | none => none
  | some (.ok a, w) => some (.ok a, w)
  | some (.error e, w) => if e.isInterrupted then f w else some (.error e, w)

theorem sendThrough_eq_tryThen (T : Transport σ κ) (s : κ) (data : List UInt8) (w : σ) :
    T.sendThrough s data w = T.tryThen (.send s data) (T.sendThrough s data) w := by
  rw [sendThrough_eq, tryThen]
  rcases T.call (.send s data) w with _ | ⟨_ | _, w⟩ <;> rfl

theorem recvThrough_eq_tryThen (T : Transport σ κ) (s : κ) (room : Nat) (w : σ) :
    T.recvThrough s room w = T.tryThen (.recv s room) (T.recvThrough s room) w := by
  rw [recvThrough_eq, tryThen]
  rcases T.call (.recv s room) w with _ | ⟨_ | _, w⟩ <;> rfl

theorem alike_call (q : Request κ α) (w : σ) (log : List (Record κ)) :
    Alike q (fun es _ => es = []) log (T.recorded.call q (w, log)) (T.call q w) := by
  rw [recorded_call]
  cases T.call q w with
  | none => exact .blocked
  | some x => exact .answered [] rfl

/-- A request that is made again as long as it is interrupted. The budget bounds how often. -/
theorem alike_of_tryThen {f : σ → Option (Except IoError α × σ)}
    {g : σ × List (Record κ) → Option (Except IoError α × σ × List (Record κ))}
    (hf : ∀ w, f w = T.tryThen q f w) (hg : ∀ w, g w = T.recorded.tryThen q g w)
    (hb : ∀ {w w' : σ} {e : IoError}, T.call q w = some (.error e, w') → e.isInterrupted = true →
      T.budget w' < T.budget w) (w : σ) (log : List (Record κ)) :
    Alike q Persists log (g (w, log)) (f w) := by
  -- an interrupted request leaves a smaller budget, and one record more in front
  induction hn : T.budget w using Nat.strongRecOn generalizing w log with
  | ind n ih =>
    rw [hf, hg, tryThen, tryThen, recorded_call]
    cases hc : T.call q w with
    | none => exact .blocked
    | some x =>
      obtain ⟨r, w'⟩ := x
      cases r with
      | ok a => exact .answered [] ⟨by simp, by simp⟩
      | error e =>
        dsimp only
        cases hi : e.isInterrupted with
        | false =>
          exact .answered [] ⟨by simp, by simp [hi]⟩
        | true =>
          have hrest := ih _ (hn ▸ hb hc hi) w' (log ++ [q.record (.error e)]) rfl
          simp only [if_true]
          generalize g (w', log ++ [q.record (.error e)]) = x at hrest ⊢
          generalize f w' = y at hrest ⊢
          cases hrest with
          | blocked => exact .blocked
          | answered es h =>
            rw [List.append_assoc, ← Request.records_cons]
            exact .answered (e :: es) ⟨List.forall_mem_cons.mpr ⟨hi, h.interrupted⟩, h.settled⟩

/-- The errors that a demand is made again after. -/
def Passes (d : Demand) (es : List IoError) (r : Except IoError (d.Answer κ)) : Prop :=
  if d.repeats then Persists es r else es = []

theorem alike_answer (s : κ) (w : σ) (log : List (Record κ)) (d : Demand) :
    Alike (d.request s) (Passes d) log (T.recorded.answer s (w, log) d) (T.answer s w d) := by
  cases d with
  | bind | listen | accept | connect | shutdown => exact alike_call _ w log
  | send data =>
    exact alike_of_tryThen (T.sendThrough_eq_tryThen s data)
      (T.recorded.sendThrough_eq_tryThen s data) T.budget_send_interrupted w log
  | recv room =>
    exact alike_of_tryThen (T.recvThrough_eq_tryThen s room)
      (T.recorded.recvThrough_eq_tryThen s room) T.budget_recv_interrupted w log

end Transport

namespace Handle

open Transport

variable {T : Transport σ κ} {h : Handle κ} {d : Demand} {w w' : σ} {log calls : List (Record κ)}
  {r : Except Failure Unit} {hs : List (Handle κ)}

/-- What the stage admits is asked of the socket of the handle, and of no other, with the same
result whether the calls are recorded or not. -/
theorem ask_recorded (hd : d.operation.admittedIn h.stage = true) (w : σ)
    (log : List (Record κ)) :
    h.ask T.recorded d (w, log) = none ∧ h.ask T d w = none ∨
      ∃ es a w', Passes d es a ∧
        h.ask T.recorded d (w, log) =
          some ((h.settle d a).1, (h.settle d a).2, w',
            log ++ (d.request h.socket).records es a) ∧
        h.ask T d w = some ((h.settle d a).1, (h.settle d a).2, w') := by
  rw [ask_of_admitted hd, ask_of_admitted hd]
  have hl := alike_answer h.socket w log d (T := T)
  generalize T.recorded.answer h.socket (w, log) d = x at hl ⊢
  generalize T.answer h.socket w d = y at hl ⊢
  cases hl with
  | blocked => exact .inl ⟨rfl, rfl⟩
  | answered es hes => exact .inr ⟨_, _, _, hes, rfl, rfl⟩

theorem of_ask_recorded (hd : d.operation.admittedIn h.stage = true)
    (ha : h.ask T.recorded d (w, []) = some (r, hs, w', calls)) :
    ∃ es a, Passes d es a ∧ (r, hs) = h.settle d a ∧
      calls = (d.request h.socket).records es a := by
  rcases ask_recorded hd w [] with ⟨hnone, -⟩ | ⟨es, a, w₁, hes, hsome, -⟩
  · rw [hnone] at ha
    cases ha
  · rw [hsome] at ha
    cases ha
    exact ⟨es, a, hes, rfl, rfl⟩

theorem of_localAddr_recorded {a : Option Descriptor}
    (ha : h.localAddr T.recorded (w, []) = some (a, w', calls)) :
    ∃ r, calls = [.localAddr h.socket r] := by
  rw [Handle.localAddr, recorded_call] at ha
  cases hx : T.call (.localAddr h.socket) w with
  | none =>
    rw [hx] at ha
    cases ha
  | some x =>
    obtain ⟨r, w₁⟩ := x
    rw [hx] at ha
    cases r with
    | error e =>
      cases ha
      exact ⟨.error e, rfl⟩
    | ok own =>
      cases ha
      exact ⟨.ok own, rfl⟩

theorem of_create_recorded
    (hc : Handle.create T.recorded (w, []) = some (.ok h, w', calls)) :
    h = ⟨h.socket, .created, none, none⟩ ∧ calls = [.socket (.ok h.socket)] := by
  rw [Handle.create, recorded_call] at hc
  cases hx : T.call .socket w with
  | none =>
    rw [hx] at hc
    cases hc
  | some x =>
    obtain ⟨r, w₁⟩ := x
    rw [hx] at hc
    cases r with
    | error e => cases hc
    | ok s =>
      cases hc
      exact ⟨rfl, rfl⟩

end Handle
end Handoff
