import Handoff.Handle
import Handoff.Script

/-!
Calls made in order over a script. The entry that a call takes is told by how many calls of its kind
were made before it, so the script tells beforehand where a plan of calls is broken off: right after
the first call that fails. `log_walk` says that this is what the log of the tape shows.
-/
namespace Handoff.Script

/-- The word that a call is logged under. -/
def CallKind.name : CallKind → String
  | socket => "socket"
  | bind => "bind"
  | listen => "listen"
  | accept => "accept"
  | connect => "connect"
  | send => "send"
  | recv => "recv"
  | shutdown => "shutdown"
  | localAddr => "local_addr"

/-- A log line is the word alone, or the word and what the call was given. -/
theorem Call.line_eq (c : Call) :
    c.line = c.kind.name ∨ ∃ given, c.line = c.kind.name ++ " " ++ given := by
  cases c with
  | socket => exact .inl rfl
  | bind a => exact .inr ⟨_, rfl⟩
  | listen n => exact .inr ⟨_, rfl⟩
  | accept => exact .inl rfl
  | connect a => exact .inr ⟨_, rfl⟩
  | send data =>
    cases data with
    | nil => exact .inl rfl
    | cons b bs => exact .inr ⟨_, rfl⟩
  | recv room => exact .inr ⟨_, rfl⟩
  | shutdown how =>
    cases how with
    | read => exact .inr ⟨"Read", by decide⟩
    | write => exact .inr ⟨"Write", by decide⟩
    | both => exact .inr ⟨"Both", by decide⟩
  | localAddr => exact .inl rfl

/-- The first word of the line that a call is logged as. -/
def Call.word (c : Call) : String := .ofList (c.line.toList.takeWhile (· ≠ ' '))

theorem Call.word_eq (c : Call) : c.word = c.kind.name := by
  have hall : c.kind.name.toList.all (· ≠ ' ') = true := by
    generalize c.kind = k
    cases k <;> decide
  have hname := List.all_eq_true.mp hall
  have hword : c.line.toList.takeWhile (· ≠ ' ') = c.kind.name.toList := by
    rcases c.line_eq with h | ⟨given, h⟩
    · rw [h, ← List.append_nil c.kind.name.toList, List.takeWhile_append_of_pos hname]
      rfl
    · rw [h, String.toList_append, String.toList_append, List.append_assoc,
        List.takeWhile_append_of_pos hname]
      exact List.append_nil _
  rw [word, hword, String.ofList_toList]

/-- The error that an entry tells its call to fail with. -/
def Entry.error? : Entry → Option IoError
  | fail e => some e
  | plain | count _ | address _ => none

/-- Whether an entry cuts its call short by a signal. -/
def Entry.interrupts (x : Entry) : Bool := x.error?.any IoError.isInterrupted

/-- The error that a call ends a run with when it takes an entry. An interrupted transfer is made
again, and a near address may stay unknown. -/
def Call.fault? (c : Call) (x : Entry) : Option IoError :=
  match c with
  | localAddr => none
  | send _ | recv _ => if x.interrupts then none else x.error?
  | _ => x.error?

/-- How many bytes a transfer moves when it takes an entry, unless it fails. -/
def Call.moved? (c : Call) (x : Entry) : Option Nat :=
  match c, x.error? with
  | send data, none => some (sentCount data x)
  | recv room, none => some (received room x).length
  | _, _ => none

section Entries

variable (ahead : CallKind → List Entry) (c : Call)

/-- The entry that a call takes. -/
def entry : Entry := (ahead c.kind).headD .plain

/-- The entries that a call leaves. -/
def rest : CallKind → List Entry := fun k => if k = c.kind then (ahead k).tail else ahead k

/-- Calls made in order, each with the entry that it takes. -/
def played (ahead : CallKind → List Entry) : List Call → List (Call × Entry)
  | [] => []
  | c :: cs => (c, entry ahead c) :: played (rest ahead c) cs

/-- A plan of calls, broken off right after the first call that fails. -/
def cutOff (ahead : CallKind → List Entry) : List Call → List Call
  | [] => []
  | c :: cs =>
    if (c.fault? (entry ahead c)).isSome then [c] else c :: cutOff (rest ahead c) cs

/-- What the transfers moved that did not fail, in order. -/
def sizes (calls : List (Call × Entry)) : List Nat := calls.filterMap fun x => x.1.moved? x.2

end Entries

variable {ahead : CallKind → List Entry} {c : Call} {cs plan : List Call} {t : Tape} {e : IoError}

theorem cutOff_of_fault {c : Call} {e : IoError} (h : c.fault? (entry ahead c) = some e)
    (cs : List Call) : cutOff ahead (c :: cs) = [c] := by
  rw [cutOff, h]
  rfl

theorem cutOff_of_not_fault {c : Call} (h : c.fault? (entry ahead c) = none)
    (cs : List Call) : cutOff ahead (c :: cs) = c :: cutOff (rest ahead c) cs := by
  rw [cutOff, h]
  rfl

theorem cutOff_cons (ahead : CallKind → List Entry) (c : Call) (cs : List Call) :
    ∃ ds, cutOff ahead (c :: cs) = c :: ds := by
  rw [cutOff]
  split <;> exact ⟨_, rfl⟩

@[simp] theorem cutOff_singleton (ahead : CallKind → List Entry) (c : Call) :
    cutOff ahead [c] = [c] := by
  rw [cutOff, cutOff]
  split <;> rfl

@[simp] theorem sizes_nil : sizes [] = [] := rfl

theorem sizes_cons_of_moved {x : Call × Entry} {n : Nat} (h : x.1.moved? x.2 = some n)
    (xs : List (Call × Entry)) : sizes (x :: xs) = n :: sizes xs := List.filterMap_cons_some h

theorem sizes_cons_of_not_moved {x : Call × Entry} (h : x.1.moved? x.2 = none)
    (xs : List (Call × Entry)) : sizes (x :: xs) = sizes xs := List.filterMap_cons_none h

theorem error?_eq_some {x : Entry} (h : x.error? = some e) : x = .fail e := by
  cases x with
  | fail e' => rw [Option.some.inj h]
  | _ => simp [Entry.error?] at h

theorem fault?_eq_some {x : Entry} (h : c.fault? x = some e) : x = .fail e := by
  refine error?_eq_some ?_
  cases c with
  | localAddr => simp [Call.fault?] at h
  | send | recv =>
    simp only [Call.fault?] at h
    split at h
    · simp at h
    · exact h
  | _ => exact h

theorem rest_kind (ahead : CallKind → List Entry) (c : Call) :
    rest ahead c c.kind = (ahead c.kind).tail := if_pos rfl

/-! ### Calls that are made again -/

/-- How many entries there are up to the first that does not ask for another call. -/
def tries (again : Entry → Bool) (xs : List Entry) : Nat := (xs.takeWhile again).length + 1

/-- A call made as often as its entries ask for it. -/
def repeated (again : Entry → Bool) (c : Call) (ahead : CallKind → List Entry) : List Call :=
  List.replicate (tries again (ahead c.kind)) c

section Again

variable {again : Entry → Bool}

theorem repeated_of_again (hplain : again .plain = false) (h : again (entry ahead c) = true) :
    repeated again c ahead = c :: repeated again c (rest ahead c) := by
  rw [entry] at h
  rw [repeated, repeated, rest_kind]
  cases hxs : ahead c.kind with
  | nil =>
    rw [hxs, List.headD_nil, hplain] at h
    cases h
  | cons x xs =>
    rw [hxs, List.headD_cons] at h
    simp [tries, h, List.replicate_succ]

theorem repeated_of_not_again (h : again (entry ahead c) = false) :
    repeated again c ahead = [c] := by
  rw [entry] at h
  rw [repeated]
  cases hxs : ahead c.kind with
  | nil => rfl
  | cons x xs =>
    rw [hxs, List.headD_cons] at h
    simp [tries, h]

/-- What holds where no other call is asked for, and where one is if it holds after the call, holds
of every script. -/
theorem repeat_induction {P : (CallKind → List Entry) → Prop} (again : Entry → Bool)
    (hplain : again .plain = false) (c : Call)
    (last : ∀ ahead, again (entry ahead c) = false → P ahead)
    (more : ∀ ahead, again (entry ahead c) = true → P (rest ahead c) → P ahead)
    (ahead : CallKind → List Entry) : P ahead := by
  induction hxs : ahead c.kind generalizing ahead with
  | nil =>
    refine last ahead ?_
    rw [entry, hxs]
    exact hplain
  | cons x xs ih =>
    cases hx : again (entry ahead c) with
    | false => exact last ahead hx
    | true =>
      refine more ahead hx (ih _ ?_)
      rw [rest_kind, hxs, List.tail_cons]

end Again

/-! ### Calls over a tape -/

@[simp] theorem ahead_take (t : Tape) (c : Call) : (t.take c).2.ahead = rest t.ahead c := rfl

@[simp] theorem log_take (t : Tape) (c : Call) : (t.take c).2.log = t.log ++ [c] := rfl

/-- A call fails as its entry tells, or gives its answer to the entry. -/
theorem play_eq {α : Type} (t : Tape) (c : Call) (answer : Entry → α) :
    play t c answer =
      match (entry t.ahead c).error? with
      | some e => some (.error e, (t.take c).2)
      | none => some (.ok (answer (entry t.ahead c)), (t.take c).2) := by
  have ht : t.take c = (entry t.ahead c, (t.take c).2) := rfl
  rw [play, ht]
  cases entry t.ahead c <;> rfl

/-- Where no failure is let pass, a call that fails ends the run. -/
theorem play_eq_of_strict {α : Type} (hc : ∀ x, c.fault? x = x.error?) (t : Tape)
    (answer : Entry → α) :
    play t c answer =
      match c.fault? (entry t.ahead c) with
      | some e => some (.error e, (t.take c).2)
      | none => some (.ok (answer (entry t.ahead c)), (t.take c).2) := by
  rw [play_eq, hc]

/-- An interrupted send is made again, at the next entry. -/
theorem sendThrough_eq (s : Unit) (data : List UInt8) (t : Tape) :
    transport.sendThrough s data t =
      if (entry t.ahead (.send data)).interrupts then
        transport.sendThrough s data (t.take (.send data)).2
      else play t (.send data) (sentCount data) := by
  have hc : transport.call (.send s data) t = play t (.send data) (sentCount data) := rfl
  rw [Transport.sendThrough_eq, hc, play_eq, Entry.interrupts]
  cases (entry t.ahead (.send data)).error? <;> rfl

/-- An interrupted receive is made again, at the next entry. -/
theorem recvThrough_eq (s : Unit) (room : Nat) (t : Tape) :
    transport.recvThrough s room t =
      if (entry t.ahead (.recv room)).interrupts then
        transport.recvThrough s room (t.take (.recv room)).2
      else play t (.recv room) (received room) := by
  have hc : transport.call (.recv s room) t = play t (.recv room) (received room) := rfl
  rw [Transport.recvThrough_eq, hc, play_eq, Entry.interrupts]
  cases (entry t.ahead (.recv room)).error? <;> rfl

/-- The near address that a script tells, if it tells one. -/
def toldOwn? (ahead : CallKind → List Entry) : Option Descriptor :=
  match (entry ahead .localAddr).error? with
  | some _ => none
  | none => some (addressOr defaultOwn (entry ahead .localAddr))

/-- A handle whose script tells no near address gives the one it was bound to. -/
theorem localAddr_eq (h : Handle Unit) (t : Tape) :
    h.localAddr transport t = some ((toldOwn? t.ahead).or h.own, (t.take .localAddr).2) := by
  have hc : transport.call (.localAddr h.socket) t = play t .localAddr (addressOr defaultOwn) := rfl
  rw [Handle.localAddr, hc, play_eq, toldOwn?]
  cases (entry t.ahead .localAddr).error? <;> rfl

/-! ### Handles in the right stage -/

section Handles

variable {h : Handle Unit}

theorem create_eq (t : Tape) :
    Handle.create transport t =
      match Call.socket.fault? (entry t.ahead .socket) with
      | some e => some (.error (.socket e), (t.take .socket).2)
      | none => some (.ok ⟨(), .created, none, none⟩, (t.take .socket).2) := by
  have hc : transport.call .socket t = play t .socket fun _ => () := rfl
  rw [Handle.create, hc, play_eq_of_strict fun _ => rfl]
  cases Call.socket.fault? (entry t.ahead .socket) <;> rfl

theorem bind_eq (hs : h.stage = .created) (a : Descriptor) (t : Tape) :
    h.bind transport a t =
      match (Call.bind a).fault? (entry t.ahead (.bind a)) with
      | some e => some (.error (.bind a e), h, (t.take (.bind a)).2)
      | none => some (.ok (), { h with stage := .bound, own := some a }, (t.take (.bind a)).2) := by
  have hc : transport.call (.bind h.socket a) t = play t (.bind a) fun _ => () := rfl
  rw [Handle.bind, if_pos (by rw [hs]; rfl), hc, play_eq_of_strict fun _ => rfl]
  cases (Call.bind a).fault? (entry t.ahead (.bind a)) <;> rfl

theorem listen_eq (hs : h.stage = .bound) (backlog : UInt32) (t : Tape) :
    h.listen transport backlog t =
      match (Call.listen backlog).fault? (entry t.ahead (.listen backlog)) with
      | some e => some (.error (.listen h.ownOrAny backlog e), h, (t.take (.listen backlog)).2)
      | none => some (.ok (), { h with stage := .listening }, (t.take (.listen backlog)).2) := by
  have hc : transport.call (.listen h.socket backlog) t =
      play t (.listen backlog) fun _ => () := rfl
  rw [Handle.listen, if_pos (by rw [hs]; rfl), hc, play_eq_of_strict fun _ => rfl]
  cases (Call.listen backlog).fault? (entry t.ahead (.listen backlog)) <;> rfl

theorem connect_eq (hs : h.stage = .created) (a : Descriptor) (t : Tape) :
    h.connect transport a t =
      match (Call.connect a).fault? (entry t.ahead (.connect a)) with
      | some e => some (.error (.connect a e), h, (t.take (.connect a)).2)
      | none =>
        some (.ok (), { h with stage := .connected, peer := some a }, (t.take (.connect a)).2) := by
  have hc : transport.call (.connect h.socket a) t = play t (.connect a) fun _ => () := rfl
  rw [Handle.connect, if_pos (by rw [hs]; rfl), hc, play_eq_of_strict fun _ => rfl]
  cases (Call.connect a).fault? (entry t.ahead (.connect a)) <;> rfl

theorem shutdown_eq (hs : h.stage.isConnection = true) (t : Tape) :
    h.shutdown transport t =
      match (Call.shutdown .both).fault? (entry t.ahead (.shutdown .both)) with
      | some e => some (.error (.shutdown h.peerOrAny e), h, (t.take (.shutdown .both)).2)
      | none => some (.ok (), { h with stage := .shutdown }, (t.take (.shutdown .both)).2) := by
  have hc : transport.call (.shutdown h.socket .both) t =
      play t (.shutdown .both) fun _ => () := rfl
  have ha : Operation.shutdown.admittedIn h.stage = true := hs
  rw [Handle.shutdown, if_pos ha, hc, play_eq_of_strict fun _ => rfl]
  cases (Call.shutdown .both).fault? (entry t.ahead (.shutdown .both)) <;> rfl

end Handles

/-! ### Plans -/

/-- Makes the calls of a plan in order until one of them fails. -/
def walk (t : Tape) : List Call → Option (Call × IoError) × Tape
  | [] => (none, t)
  | c :: cs =>
    match c.fault? (entry t.ahead c) with
    | some e => (some (c, e), (t.take c).2)
    | none => walk (t.take c).2 cs

theorem walk_of_fault (h : c.fault? (entry t.ahead c) = some e) (cs : List Call) :
    walk t (c :: cs) = (some (c, e), (t.take c).2) := by
  rw [walk, h]

theorem walk_of_not_fault (h : c.fault? (entry t.ahead c) = none) (cs : List Call) :
    walk t (c :: cs) = walk (t.take c).2 cs := by
  rw [walk, h]

/-- The log shows the plan up to the first call that fails. -/
theorem log_walk (t : Tape) (plan : List Call) :
    (walk t plan).2.log = t.log ++ cutOff t.ahead plan := by
  induction plan generalizing t with
  | nil => simp [walk, cutOff]
  | cons c cs ih =>
    cases h : c.fault? (entry t.ahead c) with
    | some e => simp [walk_of_fault h, cutOff, h]
    | none => simp [walk_of_not_fault h, cutOff, h, ih]

theorem mem_of_walk_eq_some (h : (walk t plan).1 = some (c, e)) : c ∈ plan := by
  induction plan generalizing t with
  | nil => simp [walk] at h
  | cons d ds ih =>
    cases hf : d.fault? (entry t.ahead d) with
    | some e' =>
      simp only [walk_of_fault hf, Option.some.injEq, Prod.mk.injEq] at h
      exact h.1 ▸ List.mem_cons_self
    | none =>
      rw [walk_of_not_fault hf] at h
      exact List.mem_cons_of_mem _ (ih h)

/-- Calls that come after a plan are made if none of it fails. -/
theorem walk_append (h : (walk t plan).1 = none) (more : List Call) :
    walk t (plan ++ more) = walk (walk t plan).2 more := by
  induction plan generalizing t with
  | nil => rfl
  | cons d ds ih =>
    cases hf : d.fault? (entry t.ahead d) with
    | some e => simp [walk_of_fault hf] at h
    | none =>
      rw [walk_of_not_fault hf] at h
      rw [List.cons_append, walk_of_not_fault hf, walk_of_not_fault hf]
      exact ih h

/-- A plan of which no call fails is made in full. -/
theorem of_walk_eq_none (h : (walk t plan).1 = none) :
    cutOff t.ahead plan = plan ∧ ∀ x ∈ played t.ahead plan, x.1.fault? x.2 = none := by
  induction plan generalizing t with
  | nil => exact ⟨rfl, by simp [played]⟩
  | cons c cs ih =>
    cases hf : c.fault? (entry t.ahead c) with
    | some e => simp [walk_of_fault hf] at h
    | none =>
      rw [walk_of_not_fault hf] at h
      obtain ⟨hcut, hnone⟩ := ih h
      rw [ahead_take] at hcut hnone
      refine ⟨by simp [cutOff, hf, hcut], ?_⟩
      intro x hx
      rcases List.mem_cons.mp hx with rfl | hx
      · exact hf
      · exact hnone x hx

/-- Where a plan is broken off, the last call has failed and none before it has. -/
theorem of_walk_eq_some (h : (walk t plan).1 = some (c, e)) :
    c.fault? (.fail e) = some e ∧ ∃ before,
      played t.ahead (cutOff t.ahead plan) = before ++ [(c, .fail e)] ∧
      ∀ x ∈ before, x.1.fault? x.2 = none := by
  induction plan generalizing t with
  | nil => simp [walk] at h
  | cons c' cs ih =>
    cases hf : c'.fault? (entry t.ahead c') with
    | some e' =>
      simp only [walk_of_fault hf, Option.some.injEq, Prod.mk.injEq] at h
      obtain ⟨rfl, rfl⟩ := h
      have hx := fault?_eq_some hf
      rw [hx] at hf
      exact ⟨hf, [], by simp [cutOff, played, hx, hf], by simp⟩
    | none =>
      rw [walk_of_not_fault hf] at h
      obtain ⟨hc, before, hplayed, hbefore⟩ := ih h
      rw [ahead_take] at hplayed
      refine ⟨hc, (c', entry t.ahead c') :: before, by simp [cutOff, hf, played, hplayed], ?_⟩
      intro x hx
      rcases List.mem_cons.mp hx with rfl | hx
      · exact hf
      · exact hbefore x hx

/-- Calls that come after a plan take the entries that it has left. -/
theorem played_append (h : (walk t plan).1 = none) (more : List Call) :
    played t.ahead (plan ++ more) = played t.ahead plan ++ played (walk t plan).2.ahead more := by
  induction plan generalizing t with
  | nil => rfl
  | cons c cs ih =>
    cases hf : c.fault? (entry t.ahead c) with
    | some e => simp [walk_of_fault hf] at h
    | none =>
      rw [walk_of_not_fault hf] at h ⊢
      rw [List.cons_append, played, played, List.cons_append]
      exact congrArg _ (ih h)

/-- One more call is made if none before it fails. -/
theorem cutOff_snoc (h : (walk t plan).1 = none) (c : Call) :
    cutOff t.ahead (plan ++ [c]) = plan ++ [c] := by
  induction plan generalizing t with
  | nil => exact cutOff_singleton _ _
  | cons c' cs ih =>
    cases hf : c'.fault? (entry t.ahead c') with
    | some e => simp [walk_of_fault hf] at h
    | none =>
      rw [walk_of_not_fault hf] at h
      rw [List.cons_append, cutOff_of_not_fault hf]
      exact congrArg _ (ih h)

/-- A plan that is broken off is so whatever comes after it. -/
theorem cutOff_append (h : (walk t plan).1 ≠ none) (more : List Call) :
    cutOff t.ahead (plan ++ more) = cutOff t.ahead plan := by
  induction plan generalizing t with
  | nil => exact absurd rfl h
  | cons c cs ih =>
    rw [List.cons_append]
    cases hf : c.fault? (entry t.ahead c) with
    | some e => rw [cutOff_of_fault hf, cutOff_of_fault hf]
    | none =>
      rw [walk_of_not_fault hf] at h
      rw [cutOff_of_not_fault hf, cutOff_of_not_fault hf]
      exact congrArg _ (ih h)

end Handoff.Script
