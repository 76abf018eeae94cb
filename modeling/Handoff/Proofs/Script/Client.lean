import Handoff.Client
import Handoff.Proofs.Script.Plan

/-!
The run of a client over a script. As with a server its calls are a plan that the script breaks off;
a send that falls short ends it too, without a shutdown. The main statement is
`delivered_of_script`.
-/
namespace Handoff

open Script

/-- The calls of a client that sends `m` times, up to the last send. -/
def Client.Config.approach (c : Client.Config) (m : Nat) : List Call :=
  [.socket, .connect c.remote, .localAddr] ++ List.replicate m (.send c.payload)

/-- Whether a count falls short of the payload, or is nothing at all. -/
def Client.Config.Short (c : Client.Config) (n : Nat) : Prop := n = 0 ∨ n < c.payload.length

namespace Script

variable {c : Client.Config} {own : Option Descriptor} {h : Handle Unit} {t t' : Tape}
  {plan : List Call} {o : Except Failure SendReport} {call : Call} {e : IoError} {f : Failure}

/-- The sends of a client: one, and one more for each that is interrupted. -/
def sendCalls (data : List UInt8) (ahead : CallKind → List Entry) : List Call :=
  repeated Entry.interrupts (.send data) ahead

/-- How the sends of a client end, by the one that fails and what is moved. -/
inductive SendEnds (data : List UInt8) :
    Option (Call × IoError) → List Nat → Except IoError Nat → Prop where
  | cut (e : IoError) : SendEnds data (some (.send data, e)) [] (.error e)
  | sent (n : Nat) : SendEnds data none [n] (.ok n)

/-- A send over a script makes as many calls as it takes. -/
theorem sendThrough_ends (s : Unit) (data : List UInt8) (ahead : CallKind → List Entry) :
    ∀ t : Tape, t.ahead = ahead →
      ∃ r, transport.sendThrough s data t = some (r, (walk t (sendCalls data ahead)).2) ∧
        SendEnds data (walk t (sendCalls data ahead)).1
          (sizes (played ahead (cutOff ahead (sendCalls data ahead)))) r := by
  induction ahead using repeat_induction Entry.interrupts rfl (.send data) with
  | last ahead h =>
    rintro t rfl
    rw [sendCalls, repeated_of_not_again h, sendThrough_eq, h, play_eq, cutOff_singleton, played,
      played]
    cases hx : (entry t.ahead (.send data)).error? with
    | some e =>
      have hf : (Call.send data).fault? (entry t.ahead (.send data)) = some e := by
        simp [Call.fault?, h, hx]
      rw [walk_of_fault hf, sizes_cons_of_not_moved (by simp [Call.moved?, hx])]
      exact ⟨_, rfl, .cut e⟩
    | none =>
      have hf : (Call.send data).fault? (entry t.ahead (.send data)) = none := by
        simp [Call.fault?, h, hx]
      have hm : (Call.send data).moved? (entry t.ahead (.send data)) =
          some (sentCount data (entry t.ahead (.send data))) := by
        simp [Call.moved?, hx]
      rw [walk_of_not_fault hf, sizes_cons_of_moved hm]
      exact ⟨_, rfl, .sent _⟩
  | more ahead h ih =>
    rintro t rfl
    have hf : (Call.send data).fault? (entry t.ahead (.send data)) = none := by
      simp [Call.fault?, h]
    have hm : (Call.send data).moved? (entry t.ahead (.send data)) = none := by
      cases hx : (entry t.ahead (.send data)).error? with
      | none => simp [Entry.interrupts, hx] at h
      | some e => simp [Call.moved?, hx]
    rw [sendCalls, repeated_of_again rfl h, sendThrough_eq, if_pos h, walk_of_not_fault hf,
      cutOff_of_not_fault hf, played, sizes_cons_of_not_moved hm]
    exact ih _ rfl

/-! ### The run -/

/-- The address that a failed call of a client concerns. -/
def concernedBy (c : Client.Config) (k : CallKind) : Option Descriptor :=
  if k = .socket then none else some c.remote

structure Charged (c : Client.Config) (call : Call) (e : IoError) (f : Failure) : Prop where
  step : f.step.name = call.kind.name
  cause : f.cause? = some e
  address : f.address? = concernedBy c call.kind

/-- The failure of a transfer that falls short. -/
def shortfall (c : Client.Config) (n : Nat) : Failure :=
  if n = 0 then .nothingSent c.remote else .shortSend c.remote n c.payload.length

/-- The outcome of a transfer that was enough, by the entry that its shutdown takes. -/
def closed (c : Client.Config) (own : Option Descriptor) (n : Nat) (x : Entry) :
    Except Failure SendReport :=
  match x.error? with
  | some e => .error (.shutdown c.remote e)
  | none => .ok ⟨own, c.remote, n⟩

/-- How a client ends whose calls up to its last send are a plan: one of them fails, the send falls
short, or the connection is closed. -/
inductive ClientEnds (c : Client.Config) (own : Option Descriptor) (t : Tape) (plan : List Call) :
    Except Failure SendReport → Tape → Prop where
  | broken {call : Call} {e : IoError} {f : Failure} (hw : (walk t plan).1 = some (call, e))
      (hm : sizes (played t.ahead (cutOff t.ahead plan)) = []) (hf : Charged c call e f) :
      ClientEnds c own t plan (.error f) (walk t plan).2
  | short {n : Nat} (hw : (walk t plan).1 = none)
      (hm : sizes (played t.ahead (cutOff t.ahead plan)) = [n]) (hn : c.Short n) :
      ClientEnds c own t plan (.error (shortfall c n)) (walk t plan).2
  | closing {n : Nat} (hw : (walk t plan).1 = none)
      (hm : sizes (played t.ahead (cutOff t.ahead plan)) = [n]) (hn : ¬c.Short n) :
      ClientEnds c own t plan
        (closed c own n (entry (walk t plan).2.ahead (.shutdown .both)))
        ((walk t plan).2.take (.shutdown .both)).2

/-- A call that fails first is the end. -/
theorem ClientEnds.of_fault (hf : call.fault? (entry t.ahead call) = some e)
    (hm : ∀ x, call.moved? x = none) (hc : Charged c call e f) (cs : List Call) :
    ClientEnds c own t (call :: cs) (.error f) (t.take call).2 := by
  have hw := walk_of_fault hf cs
  have h : ClientEnds c own t (call :: cs) (.error f) (walk t (call :: cs)).2 := by
    refine .broken (by rw [hw]) ?_ hc
    rw [cutOff_of_fault hf, played, sizes_cons_of_not_moved (hm _)]
    rfl
  rwa [hw] at h

theorem ClientEnds.cons (hf : call.fault? (entry t.ahead call) = none)
    (hm : ∀ x, call.moved? x = none) (he : ClientEnds c own (t.take call).2 plan o t') :
    ClientEnds c own t (call :: plan) o t' := by
  have hw := walk_of_not_fault hf plan
  have hs : sizes (played t.ahead (cutOff t.ahead (call :: plan))) =
      sizes (played (t.take call).2.ahead (cutOff (t.take call).2.ahead plan)) := by
    rw [cutOff_of_not_fault hf, played, sizes_cons_of_not_moved (hm _)]
    rfl
  cases he with
  | broken hw' hm' hc =>
    rw [← hw] at hw' ⊢
    exact .broken hw' (hs.trans hm') hc
  | short hw' hm' hn =>
    rw [← hw] at hw' ⊢
    exact .short hw' (hs.trans hm') hn
  | closing hw' hm' hn =>
    rw [← hw] at hw' ⊢
    exact .closing hw' (hs.trans hm') hn

theorem advance_left (ss : List Unit) (o : Except Failure SendReport) (t : Tape) :
    (Delivery.leaving ss o).advance transport c t = (.leaving [] o, t) := by
  induction ss with
  | nil =>
    rw [Delivery.advance_eq]
    rfl
  | cons s ss ih =>
    rw [Delivery.advance_eq]
    exact ih

theorem afterSend_of_short (own : Option Descriptor) {n : Nat} (hn : c.Short n) :
    Delivery.afterSend c h own n = .leaving [h.socket] (.error (shortfall c n)) := by
  unfold Delivery.afterSend shortfall
  rcases hn with rfl | hn
  · rfl
  · split
    · rfl
    · rfl

theorem afterSend_of_not_short (own : Option Descriptor) {n : Nat} (hn : ¬c.Short n) :
    Delivery.afterSend c h own n = .closing h own n := by
  obtain ⟨h0, hlt⟩ := not_or.mp hn
  rw [Delivery.afterSend, if_neg h0, if_neg hlt]

/-- A connected client sends, and shuts the connection down if that was enough. -/
theorem advance_sending (c : Client.Config) (own : Option Descriptor) (hs : h.stage = .connected)
    (hp : h.peer = some c.remote) (t : Tape) :
    ∃ o t', (Delivery.sending h own).advance transport c t = (.leaving [] o, t') ∧
      ClientEnds c own t (sendCalls c.payload t.ahead) o t' := by
  have hany : h.peerOrAny = c.remote := by rw [Handle.peerOrAny, hp]; rfl
  have ha : Operation.send.admittedIn h.stage = true := by rw [hs]; rfl
  obtain ⟨r, hr, he⟩ := sendThrough_ends h.socket c.payload t.ahead t rfl
  rw [Delivery.advance_eq, Delivery.step, Handle.send, if_pos ha, hr, hany]
  generalize hw : (walk t (sendCalls c.payload t.ahead)).1 = x at he
  generalize hm : sizes (played t.ahead (cutOff t.ahead (sendCalls c.payload t.ahead))) = ns at he
  cases he with
  | cut e => exact ⟨_, _, advance_left _ _ _, .broken hw hm ⟨rfl, rfl, rfl⟩⟩
  | sent n =>
    by_cases hn : c.Short n
    · dsimp only
      rw [afterSend_of_short own hn]
      exact ⟨_, _, advance_left _ _ _, .short hw hm hn⟩
    · have hc : h.stage.isConnection = true := by rw [hs]; rfl
      dsimp only
      rw [afterSend_of_not_short own hn, Delivery.advance_eq, Delivery.step, shutdown_eq hc, hany]
      refine ⟨_, _, ?_, .closing hw hm hn⟩
      unfold closed
      generalize (walk t (sendCalls c.payload t.ahead)).2 = t'
      have hfault : (Call.shutdown .both).fault? (entry t'.ahead (.shutdown .both)) =
          (entry t'.ahead (.shutdown .both)).error? := rfl
      rw [hfault]
      cases (entry t'.ahead (.shutdown .both)).error? with
      | some e => exact advance_left _ _ _
      | none => exact advance_left _ _ _

/-- A client makes the calls of its plan up to the first that fails. -/
theorem run_client_eq (c : Client.Config) (t : Tape) :
    ∃ o t', Client.run transport c t = some (o, t') ∧
      ClientEnds c (toldOwn? t.ahead) t (c.approach (tries Entry.interrupts (t.ahead .send)))
        o t' := by
  have hplan : c.approach (tries Entry.interrupts (t.ahead .send)) =
      .socket :: .connect c.remote :: .localAddr :: sendCalls c.payload
        (rest (rest (rest t.ahead .socket) (.connect c.remote)) .localAddr) := rfl
  rw [hplan, Client.run, Delivery.advance_eq, Delivery.step, create_eq]
  cases h₁ : Call.socket.fault? (entry t.ahead .socket) with
  | some e =>
    simp only [advance_left]
    exact ⟨_, _, rfl, .of_fault h₁ (fun _ => rfl) ⟨rfl, rfl, rfl⟩ _⟩
  | none =>
    simp only
    rw [Delivery.advance_eq, Delivery.step, connect_eq rfl]
    cases h₂ : (Call.connect c.remote).fault?
        (entry (t.take .socket).2.ahead (.connect c.remote)) with
    | some e =>
      simp only [advance_left]
      exact ⟨_, _, rfl, .cons h₁ (fun _ => rfl)
        (.of_fault h₂ (fun _ => rfl) ⟨rfl, rfl, rfl⟩ _)⟩
    | none =>
      simp only
      rw [Delivery.advance_eq, Delivery.step, localAddr_eq]
      have hown : (toldOwn? ((t.take .socket).2.take (.connect c.remote)).2.ahead).or none =
          toldOwn? t.ahead := Option.or_none
      obtain ⟨o, t', ha, he⟩ := advance_sending c (toldOwn? t.ahead)
        (h := ⟨(), .connected, none, some c.remote⟩) rfl rfl
        (((t.take .socket).2.take (.connect c.remote)).2.take .localAddr).2
      refine ⟨o, t', ?_, .cons h₁ (fun _ => rfl) (.cons h₂ (fun _ => rfl)
        (.cons rfl (fun _ => rfl) he))⟩
      simp only [hown, ha]
      rfl

theorem played_snoc (ahead : CallKind → List Entry) (plan : List Call) (call : Call) :
    ∃ before x, played ahead (plan ++ [call]) = before ++ [(call, x)] := by
  induction plan generalizing ahead with
  | nil => exact ⟨[], _, rfl⟩
  | cons c cs ih =>
    obtain ⟨before, x, h⟩ := ih (rest ahead c)
    exact ⟨(c, entry ahead c) :: before, x, congrArg (_ :: ·) h⟩

theorem approach_succ (c : Client.Config) (m : Nat) :
    c.approach (m + 1) = c.approach m ++ [.send c.payload] := by
  rw [Client.Config.approach, Client.Config.approach, List.replicate_succ', List.append_assoc]

theorem charged_shortfall (c : Client.Config) (n : Nat) :
    (shortfall c n).step.name = CallKind.send.name ∧ (shortfall c n).cause? = none ∧
      (shortfall c n).address? = some c.remote := by
  unfold shortfall
  split <;> exact ⟨rfl, rfl, rfl⟩

theorem closed_eq_ok {n : Nat} {x : Entry} {r : SendReport} :
    closed c own n x = .ok r ↔ x.error? = none ∧ r = ⟨own, c.remote, n⟩ := by
  unfold closed
  cases x.error? with
  | some e => simp
  | none => simp [eq_comm]

theorem closed_eq_error {n : Nat} {x : Entry} (h : closed c own n x = .error f) :
    ∃ e, x.error? = some e ∧ f = .shutdown c.remote e := by
  unfold closed at h
  cases hx : x.error? with
  | some e =>
    rw [hx] at h
    exact ⟨e, rfl, (Except.error.inj h).symm⟩
  | none =>
    rw [hx] at h
    cases h

/-- What the tape shows when a plan of which no call fails is followed by the shutdown. -/
theorem shutdown_after_walk (hw : (walk t plan).1 = none) :
    let x := entry (walk t plan).2.ahead (.shutdown .both)
    ((walk t plan).2.take (.shutdown .both)).2.log = t.log ++ (plan ++ [.shutdown .both]) ∧
      played t.ahead (plan ++ [.shutdown .both]) = played t.ahead plan ++ [(.shutdown .both, x)] ∧
      sizes (played t.ahead (plan ++ [.shutdown .both])) = sizes (played t.ahead plan) := by
  have hplayed := played_append hw [.shutdown .both]
  refine ⟨?_, hplayed, ?_⟩
  · rw [log_take, log_walk, (of_walk_eq_none hw).1, List.append_assoc]
  · rw [hplayed, sizes, sizes, List.filterMap_append]
    exact List.append_nil _

/-- What a client leaves behind that makes up to `m` sends, of which the last moves `ns`: its calls
are its plan, broken off right after the first that fails, and before the shutdown if the send falls
short. A failure always has the step of the last call and the address of the peer, unless there is
no socket. -/
structure Delivers (c : Client.Config) (script : CallKind → List Entry) (m : Nat) (ns : List Nat)
    (o : Except Failure SendReport) (log : List Call) : Prop where
  moved : ns = sizes (played script log)
  once : ns.length ≤ 1
  planned : (∀ n ∈ ns, 0 < n ∧ c.payload.length ≤ n) →
    log = cutOff script (c.approach m ++ [.shutdown .both])
  nothing : ∀ n ∈ ns, n = 0 → log = c.approach m ∧ o = .error (.nothingSent c.remote)
  short : ∀ n ∈ ns, 0 < n → n < c.payload.length →
    log = c.approach m ∧ o = .error (.shortSend c.remote n c.payload.length)
  enough : ∀ n ∈ ns, 0 < n → c.payload.length ≤ n →
    ∃ before x, played script log = before ++ [(.shutdown .both, x)] ∧
      ∀ r, o = .ok r ↔ x.error? = none ∧ r = ⟨toldOwn? script, c.remote, n⟩
  succeeded : ∀ r, o = .ok r → ∃ n ∈ ns, 0 < n ∧ c.payload.length ≤ n
  failed : ∀ f, o = .error f → outcomeCode o = -1 ∧ ∃ before call x,
    played script log = before ++ [(call, x)] ∧ f.step.name = call.word ∧
    f.cause? = call.fault? x ∧
    f.address? = if call.kind = .socket then none else some c.remote

section Ends

variable {script : CallKind → List Entry} {m n : Nat}

theorem delivers_of_broken
    (hw : (walk (Tape.ofEntries script) (c.approach m)).1 = some (call, e))
    (hm : sizes (played script (cutOff script (c.approach m))) = []) (hf : Charged c call e f) :
    Delivers c script m [] (.error f) (walk (Tape.ofEntries script) (c.approach m)).2.log := by
  have hlog : (walk (Tape.ofEntries script) (c.approach m)).2.log = cutOff script (c.approach m) :=
    log_walk _ _
  have hcut : cutOff script (c.approach m ++ [.shutdown .both]) = cutOff script (c.approach m) :=
    cutOff_append (by rw [hw]; exact Option.some_ne_none _) _
  obtain ⟨hfault, before, hplayed, -⟩ := of_walk_eq_some hw
  rw [hlog]
  exact {
    moved := hm.symm
    once := Nat.zero_le 1
    planned := fun _ => hcut.symm
    nothing := by simp
    short := by simp
    enough := by simp
    succeeded := by simp
    failed := by
      rintro f' ⟨⟩
      exact ⟨rfl, before, call, .fail e, hplayed, hf.step.trans call.word_eq.symm,
        hf.cause.trans hfault.symm, hf.address⟩ }

theorem delivers_of_short
    (hw : (walk (Tape.ofEntries script) (c.approach (m + 1))).1 = none)
    (hm : sizes (played script (cutOff script (c.approach (m + 1)))) = [n]) (hn : c.Short n) :
    Delivers c script (m + 1) [n] (.error (shortfall c n))
      (walk (Tape.ofEntries script) (c.approach (m + 1))).2.log := by
  have hlog : (walk (Tape.ofEntries script) (c.approach (m + 1))).2.log =
      cutOff script (c.approach (m + 1)) := log_walk _ _
  obtain ⟨hcut, hnone⟩ := of_walk_eq_none hw
  have hcut : cutOff script (c.approach (m + 1)) = c.approach (m + 1) := hcut
  have hshort : ¬(0 < n ∧ c.payload.length ≤ n) := fun ⟨h0, hle⟩ =>
    hn.elim (Nat.ne_of_gt h0) (Nat.not_lt.mpr hle)
  rw [hlog, hcut]
  rw [hcut] at hm
  exact {
    moved := hm.symm
    once := Nat.le_refl 1
    planned := fun h => absurd (h n (List.mem_singleton_self n)) hshort
    nothing := by
      intro n' hn' h0
      rw [← List.mem_singleton.mp hn', h0]
      exact ⟨rfl, rfl⟩
    short := by
      intro n' hn' h0 _
      rw [← List.mem_singleton.mp hn', shortfall, if_neg (Nat.ne_of_gt h0)]
      exact ⟨rfl, rfl⟩
    enough := by
      intro n' hn' h0 hle
      rw [List.mem_singleton.mp hn'] at h0 hle
      exact absurd ⟨h0, hle⟩ hshort
    succeeded := by simp
    failed := by
      rintro f ⟨⟩
      obtain ⟨hstep, hcause, haddress⟩ := charged_shortfall c n
      obtain ⟨before, x, hplayed⟩ := played_snoc script (c.approach m) (.send c.payload)
      rw [← approach_succ] at hplayed
      have hfault : (Call.send c.payload).fault? x = none :=
        hnone (.send c.payload, x) (by
          change _ ∈ played script _
          simp [hplayed])
      exact ⟨rfl, before, _, x, hplayed, hstep.trans (Call.word_eq (.send _)).symm,
        hcause.trans hfault.symm, haddress⟩ }

theorem delivers_of_closing (hw : (walk (Tape.ofEntries script) (c.approach m)).1 = none)
    (hm : sizes (played script (cutOff script (c.approach m))) = [n]) (hn : ¬c.Short n) :
    let t := (walk (Tape.ofEntries script) (c.approach m)).2
    Delivers c script m [n] (closed c (toldOwn? script) n (entry t.ahead (.shutdown .both)))
      (t.take (.shutdown .both)).2.log := by
  intro t
  obtain ⟨hlog, hplayed, hsizes⟩ := shutdown_after_walk hw
  have hlog : (t.take (.shutdown .both)).2.log = c.approach m ++ [.shutdown .both] := hlog
  have hcut : cutOff script (c.approach m) = c.approach m := (of_walk_eq_none hw).1
  rw [hcut] at hm
  obtain ⟨h0, hlt⟩ := not_or.mp hn
  rw [hlog]
  exact {
    moved := (hsizes.trans hm).symm
    once := Nat.le_refl 1
    planned := fun _ => (cutOff_snoc hw _).symm
    nothing := by
      intro n' hn' h
      exact absurd (List.mem_singleton.mp hn' ▸ h) h0
    short := by
      intro n' hn' _ h
      exact absurd (List.mem_singleton.mp hn' ▸ h) hlt
    enough := by
      intro n' hn' _ _
      rw [List.mem_singleton.mp hn']
      exact ⟨_, _, hplayed, fun r => closed_eq_ok⟩
    succeeded := fun _ _ =>
      ⟨n, List.mem_singleton_self n, Nat.pos_of_ne_zero h0, Nat.not_lt.mp hlt⟩
    failed := by
      intro f hf
      obtain ⟨e, hx, rfl⟩ := closed_eq_error hf
      rw [hf]
      exact ⟨rfl, _, _, _, hplayed, (Call.word_eq (.shutdown .both)).symm, hx.symm, rfl⟩ }

end Ends

/-- A client over a script always comes to an end. The script tells how often it sends, and what the
last send moves if it is made; what the client leaves behind is told by that. -/
theorem delivered_of_script (c : Client.Config) (script : CallKind → List Entry) :
    ∃ o t m ns, Client.run transport c (Tape.ofEntries script) = some (o, t) ∧
      m = tries Entry.interrupts (script .send) ∧ 0 < m ∧
      ns = sizes (played script (cutOff script (c.approach m))) ∧
      Delivers c script m ns o t.log := by
  obtain ⟨o, t, hrun, he⟩ := run_client_eq c (Tape.ofEntries script)
  refine ⟨o, t, _, _, hrun, rfl, Nat.succ_pos _, rfl, ?_⟩
  cases he with
  | broken hw hm hf => exact hm ▸ delivers_of_broken hw hm hf
  | short hw hm hn => exact hm ▸ delivers_of_short hw hm hn
  | closing hw hm hn => exact hm ▸ delivers_of_closing hw hm hn

/-- A client over a script that interrupts two sends and then falls short: the connection is not
shut down. -/
theorem delivered_of_interrupting_script :
    let script : CallKind → List Entry := fun
      | .send => [.fail (.system .intr), .fail (.plain .interrupted), .count 2]
      | .localAddr => [.fail (.plain .other)]
      | _ => []
    let c : Client.Config := { payload := [1, 2, 3] }
    ∃ t, Client.run transport c (Tape.ofEntries script) =
        some (.error (.shortSend c.remote 2 3), t) ∧
      t.log = [.socket, .connect c.remote, .localAddr, .send [1, 2, 3], .send [1, 2, 3],
        .send [1, 2, 3]] := by
  intro script c
  obtain ⟨o, t, m, ns, hrun, rfl, -, hns, hd⟩ := delivered_of_script c script
  have hmem : 2 ∈ ns := by
    rw [hns]
    decide
  obtain ⟨hlog, rfl⟩ := hd.short 2 hmem (by decide) (by decide)
  exact ⟨t, hrun, hlog⟩

end Script
end Handoff
