import Handoff.Proofs.Script.Client
import Handoff.Proofs.Script.Server

/-!
Interrupted transfers over a script. Without the entries that interrupt its transfers a script leads
to the same result, and to the same calls but for those made again. The main statement is
`undisturbed_of_script`.
-/
namespace Handoff

theorem Step.name_injective : Function.Injective Step.name := by
  intro a b h
  cases a <;> cases b <;> first | rfl | simp [name] at h

/-- A failure of the socket layer is told by its step, its cause and its address, but for the
backlog of a listener. -/
theorem Failure.eq_of_cause {f g : Failure} {e : IoError} (hf : f.cause? = some e)
    (hg : g.cause? = some e) (hs : f.step = g.step) (ha : f.address? = g.address?)
    (hl : f.step ≠ .listen) : f = g := by
  cases f with
  | listen => exact absurd rfl hl
  | _ => cases g <;> simp_all [cause?, step, address?]

namespace Script

/-- Whether a call of the kind is made again when it takes the entry. -/
def CallKind.retries (k : CallKind) (x : Entry) : Bool :=
  match k with
  | send | recv => x.interrupts
  | socket | bind | listen | accept | connect | shutdown | localAddr => false

theorem CallKind.retries_iff {k : CallKind} {x : Entry} :
    k.retries x = true ↔
      (k = .send ∨ k = .recv) ∧ ∃ e, x = .fail e ∧ e.kind = .interrupted := by
  have hx : x.interrupts = true ↔ ∃ e, x = .fail e ∧ e.kind = .interrupted := by
    cases x with
    | fail e => simp [Entry.interrupts, Entry.error?, IoError.isInterrupted]
    | _ => simp [Entry.interrupts, Entry.error?]
  cases k <;> simp [retries, hx]

theorem CallKind.retries_plain (k : CallKind) : k.retries .plain = false := by
  cases k <;> rfl

/-- A script without the entries that interrupt its transfers. -/
def quiet (script : CallKind → List Entry) : CallKind → List Entry := fun k =>
  (script k).filter fun x => !k.retries x

/-- The entries that are left when a call was made as often as they ask for it. -/
def settled (ahead : CallKind → List Entry) (c : Call) : CallKind → List Entry := fun k =>
  if k = c.kind then ((ahead k).dropWhile k.retries).tail else ahead k

/-- Calls in order, each of them made once more for every interruption that comes before the entry
it is meant for. -/
def stretched (ahead : CallKind → List Entry) : List Call → List Call
  | [] => []
  | c :: cs => repeated c.kind.retries c ahead ++ stretched (settled ahead c) cs

section Scripts

variable {ahead : CallKind → List Entry} {c : Call} {cs plan : List Call} {t t' : Tape}
  {e : IoError} {x : Entry}

theorem settled_of_retries (h : c.kind.retries (entry ahead c) = true) :
    settled ahead c = settled (rest ahead c) c := by
  funext k
  rcases eq_or_ne k c.kind with rfl | hk
  · rw [entry] at h
    cases hxs : ahead c.kind with
    | nil => simp [settled, rest, hxs]
    | cons x xs =>
      rw [hxs, List.headD_cons] at h
      simp [settled, rest, hxs, h]
  · simp [settled, rest, hk]

theorem settled_of_not_retries (h : c.kind.retries (entry ahead c) = false) :
    settled ahead c = rest ahead c := by
  funext k
  rcases eq_or_ne k c.kind with rfl | hk
  · rw [entry] at h
    cases hxs : ahead c.kind with
    | nil => simp [settled, rest, hxs]
    | cons x xs =>
      rw [hxs, List.headD_cons] at h
      simp [settled, rest, hxs, h]
  · simp [settled, rest, hk]

theorem stretched_of_retries (h : c.kind.retries (entry ahead c) = true) (cs : List Call) :
    stretched ahead (c :: cs) = c :: stretched (rest ahead c) (c :: cs) := by
  rw [stretched, repeated_of_again c.kind.retries_plain h, settled_of_retries h, stretched]
  rfl

theorem stretched_of_not_retries (h : c.kind.retries (entry ahead c) = false) (cs : List Call) :
    stretched ahead (c :: cs) = c :: stretched (rest ahead c) cs := by
  rw [stretched, repeated_of_not_again h, settled_of_not_retries h]
  rfl

theorem quiet_rest_of_retries (h : c.kind.retries (entry ahead c) = true) :
    quiet (rest ahead c) = quiet ahead := by
  funext k
  rcases eq_or_ne k c.kind with rfl | hk
  · rw [entry] at h
    cases hxs : ahead c.kind with
    | nil => simp [quiet, rest, hxs]
    | cons x xs =>
      rw [hxs, List.headD_cons] at h
      simp [quiet, rest, hxs, h]
  · simp [quiet, rest, hk]

/-- A call that is not made again finds its entry in the quiet script too. -/
theorem entry_quiet (h : c.kind.retries (entry ahead c) = false) :
    entry (quiet ahead) c = entry ahead c := by
  rw [entry] at h
  rw [entry, entry, quiet]
  cases hxs : ahead c.kind with
  | nil => rfl
  | cons x xs =>
    rw [hxs, List.headD_cons] at h
    simp [h]

theorem rest_quiet (h : c.kind.retries (entry ahead c) = false) :
    rest (quiet ahead) c = quiet (rest ahead c) := by
  funext k
  rcases eq_or_ne k c.kind with rfl | hk
  · rw [entry] at h
    cases hxs : ahead c.kind with
    | nil => simp [quiet, rest, hxs]
    | cons x xs =>
      rw [hxs, List.headD_cons] at h
      simp [quiet, rest, hxs, h]
  · simp [quiet, rest, hk]

theorem fault?_of_retries (h : c.kind.retries x = true) : c.fault? x = none := by
  cases c with
  | send | recv => exact if_pos h
  | _ => cases h

/-- Induction on a plan, and within it on the interruptions that the next call meets. -/
theorem stretch_induction {P : (CallKind → List Entry) → List Call → Prop}
    (nil : ∀ ahead, P ahead [])
    (once : ∀ ahead c cs, c.kind.retries (entry ahead c) = false → P (rest ahead c) cs →
      P ahead (c :: cs))
    (again : ∀ ahead c cs, c.kind.retries (entry ahead c) = true → P (rest ahead c) (c :: cs) →
      P ahead (c :: cs))
    (ahead : CallKind → List Entry) (plan : List Call) : P ahead plan := by
  induction plan generalizing ahead with
  | nil => exact nil ahead
  | cons c cs ih =>
    induction ahead using repeat_induction c.kind.retries c.kind.retries_plain c with
    | last ahead h => exact once ahead c cs h (ih _)
    | more ahead h ih' => exact again ahead c cs h ih'

/-- Apart from the interruptions, the calls take the entries of the quiet script. -/
theorem played_stretched (ahead : CallKind → List Entry) (plan : List Call) :
    (played ahead (stretched ahead plan)).filter (fun x => !x.1.kind.retries x.2) =
      played (quiet ahead) plan := by
  induction ahead, plan using stretch_induction with
  | nil ahead => rfl
  | once ahead c cs h ih =>
    rw [stretched_of_not_retries h, played, played, List.filter_cons_of_pos (by simp [h]), ih,
      entry_quiet h, rest_quiet h]
  | again ahead c cs h ih =>
    rw [stretched_of_retries h, played, List.filter_cons_of_neg (by simp [h]), ih,
      quiet_rest_of_retries h]

/-- A plan is broken off at the same call over the quiet script. -/
theorem cutOff_stretched (ahead : CallKind → List Entry) (plan : List Call) :
    cutOff ahead (stretched ahead plan) = stretched ahead (cutOff (quiet ahead) plan) := by
  induction ahead, plan using stretch_induction with
  | nil ahead => rfl
  | once ahead c cs h ih =>
    rw [stretched_of_not_retries h]
    cases hf : c.fault? (entry ahead c) with
    | some e =>
      rw [cutOff_of_fault hf, cutOff_of_fault (by rw [entry_quiet h, hf]),
        stretched_of_not_retries h]
      rfl
    | none =>
      rw [cutOff_of_not_fault hf, cutOff_of_not_fault (by rw [entry_quiet h, hf]),
        stretched_of_not_retries h, ih, rest_quiet h]
  | again ahead c cs h ih =>
    obtain ⟨ds, hds⟩ := cutOff_cons (quiet ahead) c cs
    rw [stretched_of_retries h, cutOff_of_not_fault (fault?_of_retries h), ih,
      quiet_rest_of_retries h, hds, stretched_of_retries h]

/-- Over the quiet script the same call fails, and the same entries are left. -/
theorem walk_stretched (ahead : CallKind → List Entry) (plan : List Call) :
    ∀ t t' : Tape, t.ahead = ahead → t'.ahead = quiet ahead →
      (walk t' plan).1 = (walk t (stretched ahead plan)).1 ∧
        (walk t' plan).2.ahead = quiet (walk t (stretched ahead plan)).2.ahead := by
  induction ahead, plan using stretch_induction with
  | nil ahead =>
    rintro t t' rfl ht
    exact ⟨rfl, ht⟩
  | once ahead c cs h ih =>
    rintro t t' rfl ht
    have hrest : (t'.take c).2.ahead = quiet (t.take c).2.ahead := by
      rw [ahead_take, ahead_take, ht, rest_quiet h]
    rw [stretched_of_not_retries h]
    cases hf : c.fault? (entry t.ahead c) with
    | some e =>
      rw [walk_of_fault hf, walk_of_fault (by rw [ht, entry_quiet h, hf])]
      exact ⟨rfl, hrest⟩
    | none =>
      rw [walk_of_not_fault hf, walk_of_not_fault (by rw [ht, entry_quiet h, hf])]
      exact ih _ _ rfl hrest
  | again ahead c cs h ih =>
    rintro t t' rfl ht
    rw [stretched_of_retries h, walk_of_not_fault (fault?_of_retries h)]
    exact ih _ _ rfl (by rw [quiet_rest_of_retries h, ht])

theorem stretched_snoc (hc : ∀ x, c.kind.retries x = false) (ahead : CallKind → List Entry)
    (plan : List Call) : stretched ahead (plan ++ [c]) = stretched ahead plan ++ [c] := by
  induction plan generalizing ahead with
  | nil => exact stretched_of_not_retries (hc _) []
  | cons d ds ih => rw [List.cons_append, stretched, stretched, ih, List.append_assoc]

theorem moved?_of_retries (h : c.kind.retries x = true) : c.moved? x = none := by
  obtain ⟨-, e, rfl, -⟩ := CallKind.retries_iff.mp h
  cases c <;> rfl

/-- Interrupted transfers move nothing. -/
theorem sizes_stretched (ahead : CallKind → List Entry) (plan : List Call) :
    sizes (played ahead (stretched ahead plan)) = sizes (played (quiet ahead) plan) := by
  rw [← played_stretched, sizes, sizes, List.filterMap_filter]
  refine congrArg (List.filterMap · _) (funext fun x => ?_)
  cases h : x.1.kind.retries x.2 with
  | true => exact moved?_of_retries h
  | false => rfl

/-- The call that fails is the last one. -/
theorem last_of_fault {before after : List (Call × Entry)}
    (h : played t.ahead (cutOff t.ahead plan) = before ++ (c, x) :: after)
    (hf : c.fault? x = some e) : after = [] ∧ (walk t plan).1 = some (c, e) := by
  induction plan generalizing t before with
  | nil => simp [cutOff, played] at h
  | cons d ds ih =>
    cases hd : d.fault? (entry t.ahead d) with
    | some e' =>
      rw [cutOff_of_fault hd, played, played, List.singleton_eq_append_iff] at h
      rcases h with ⟨rfl, h⟩ | ⟨-, h⟩
      · obtain ⟨⟨rfl, rfl⟩, rfl⟩ : (c = d ∧ x = entry t.ahead d) ∧ after = [] := by simpa using h
        rw [walk_of_fault hf]
        exact ⟨rfl, rfl⟩
      · simp at h
    | none =>
      rw [cutOff_of_not_fault hd, played, List.cons_eq_append_iff] at h
      rw [walk_of_not_fault hd]
      rcases h with ⟨rfl, h⟩ | ⟨before', rfl, h⟩
      · obtain ⟨⟨rfl, rfl⟩, -⟩ : (c = d ∧ x = entry t.ahead d) ∧ _ := by simpa using h
        rw [hd] at hf
        cases hf
      · exact ih h

end Scripts

/-! ### Plans of the endpoints -/

/-- No entry of the quiet script asks for another call. -/
theorem retries_entry_quiet (ahead : CallKind → List Entry) (c : Call) :
    c.kind.retries (entry (quiet ahead) c) = false := by
  rw [entry]
  cases hxs : quiet ahead c.kind with
  | nil => exact c.kind.retries_plain
  | cons x xs =>
    have hmem : x ∈ quiet ahead c.kind := by
      rw [hxs]
      exact List.mem_cons_self
    simpa using (List.mem_filter.mp hmem).2

theorem stretched_drainCalls (room : Nat) (ahead : CallKind → List Entry) :
    stretched ahead (drainCalls room (quiet ahead)) = drainCalls room ahead := by
  induction ahead using repeat_induction (Entry.goesOn room) rfl (.recv room) with
  | last ahead h =>
    have hr : (Call.recv room).kind.retries (entry ahead (.recv room)) = false := by
      rcases recv_cases room (entry ahead (.recv room)) with ⟨hg, -⟩ | ⟨-, -, hi, -⟩ | ⟨-, hi, -⟩
      · rw [h] at hg
        cases hg
      · exact hi
      · exact hi
    rw [drainCalls_of_stops h, drainCalls_of_stops (by rw [entry_quiet hr, h]),
      stretched_of_not_retries hr, stretched_of_not_retries rfl, stretched]
  | more ahead h ih =>
    rw [drainCalls_of_goesOn h]
    cases hr : (Call.recv room).kind.retries (entry ahead (.recv room)) with
    | true =>
      obtain ⟨cs, hcs⟩ : ∃ cs, drainCalls room (quiet ahead) = .recv room :: cs := ⟨_, rfl⟩
      rw [hcs, stretched_of_retries hr, ← hcs, ← ih, quiet_rest_of_retries hr]
    | false =>
      rw [drainCalls_of_goesOn (by rw [entry_quiet hr, h]), stretched_of_not_retries hr,
        rest_quiet hr, ih]

theorem stretched_metCalls (size : UInt64) (ahead : CallKind → List Entry) :
    stretched ahead (metCalls size (quiet ahead)) = metCalls size ahead := by
  by_cases h : size ≤ largestBuffer
  · rw [metCalls_of_le h, metCalls_of_le h, stretched_drainCalls]
  · rw [metCalls_of_lt (UInt64.not_le.mp h), metCalls_of_lt (UInt64.not_le.mp h), stretched]

theorem stretched_serverPlan (c : Server.Config) (script : CallKind → List Entry) :
    stretched script (serverPlan c (quiet script)) = serverPlan c script := by
  have hplan (ahead : CallKind → List Entry) : serverPlan c ahead =
      .socket :: .bind c.bind :: .listen c.backlog :: .localAddr :: .accept ::
        metCalls c.room
          (rest (rest (rest (rest (rest ahead .socket) (.bind c.bind)) (.listen c.backlog))
            .localAddr) .accept) := rfl
  rw [hplan, hplan]
  repeat rw [stretched_of_not_retries rfl, rest_quiet rfl]
  rw [stretched_metCalls]

/-- Over the quiet script a client sends once. -/
theorem stretched_sendCalls (data : List UInt8) (ahead : CallKind → List Entry) :
    stretched ahead (sendCalls data (quiet ahead)) = sendCalls data ahead := by
  have honce : sendCalls data (quiet ahead) = [.send data] :=
    repeated_of_not_again (retries_entry_quiet ahead (.send data))
  rw [honce, stretched, stretched, List.append_nil]
  rfl

theorem stretched_approach (c : Client.Config) (script : CallKind → List Entry) :
    stretched script (c.approach (tries Entry.interrupts (quiet script .send))) =
      c.approach (tries Entry.interrupts (script .send)) := by
  have hplan (ahead : CallKind → List Entry) : c.approach (tries Entry.interrupts (ahead .send)) =
      .socket :: .connect c.remote :: .localAddr :: sendCalls c.payload
        (rest (rest (rest ahead .socket) (.connect c.remote)) .localAddr) := rfl
  rw [hplan, hplan]
  repeat rw [stretched_of_not_retries rfl, rest_quiet rfl]
  rw [stretched_sendCalls]

theorem toldOwn?_quiet (script : CallKind → List Entry) :
    toldOwn? (quiet script) = toldOwn? script := by
  rw [toldOwn?, toldOwn?, entry_quiet rfl]

theorem toldPeer_quiet (script : CallKind → List Entry) :
    toldPeer (quiet script) = toldPeer script := by
  rw [toldPeer, toldPeer, entry_quiet rfl]

/-! ### Runs -/

/-- What a run over a script shows against the run over the quiet script. The calls are the same,
except that a transfer is made once more for every interruption that comes before its entry; and no
other call that is interrupted is made again: the run ends there. -/
structure Undisturbed {ρ : Type} (script : CallKind → List Entry) (x : Exit (Except Failure ρ))
    (log log' : List Call) : Prop where
  stretched : log = stretched script log'
  kept : (played script log).filter (fun x => !x.1.kind.retries x.2) = played (quiet script) log'
  halted : ∀ before call e after, played script log = before ++ (call, .fail e) :: after →
    e.isInterrupted = true → call.kind ∉ [.send, .recv, .localAddr] →
    after = [] ∧ ∃ f, x = .returned (.error f) ∧ f.step.name = call.word ∧ f.cause? = some e

section Runs

variable {script : CallKind → List Entry}

theorem fault?_of_not_mem {call : Call} (h : call.kind ∉ [.send, .recv, .localAddr])
    (x : Entry) : call.fault? x = x.error? := by
  cases call with
  | send | recv | localAddr => simp [Call.kind] at h
  | _ => rfl

/-- What a plan shows if the failure of the run is that of the call that fails. -/
theorem undisturbed_of_walk {ρ : Type} {x : Exit (Except Failure ρ)} {plan : List Call}
    (hend : ∀ call e, (walk (Tape.ofEntries script) (stretched script plan)).1 = some (call, e) →
      ∃ f, x = .returned (.error f) ∧ f.step.name = call.kind.name ∧ f.cause? = some e) :
    Undisturbed script x (walk (Tape.ofEntries script) (stretched script plan)).2.log
      (walk (Tape.ofEntries (quiet script)) plan).2.log := by
  have hlog : (walk (Tape.ofEntries script) (stretched script plan)).2.log =
      cutOff script (stretched script plan) := log_walk _ _
  have hlog' : (walk (Tape.ofEntries (quiet script)) plan).2.log = cutOff (quiet script) plan :=
    log_walk _ _
  rw [hlog, hlog']
  refine ⟨cutOff_stretched script plan, ?_, ?_⟩
  · rw [cutOff_stretched, played_stretched]
  · intro before call e after hplayed _ hcall
    obtain ⟨hafter, hw⟩ := last_of_fault (t := Tape.ofEntries script) hplayed
      (fault?_of_not_mem hcall _)
    obtain ⟨f, ho, hstep, hcause⟩ := hend call e hw
    exact ⟨hafter, f, ho, hstep.trans call.word_eq.symm, hcause⟩

theorem ServerEnds.unique {c : Server.Config} {r : DrainReport} {w : Option (Call × IoError)}
    {x x' : Exit (Except Failure DrainReport)} (h : ServerEnds c r w x)
    (h' : ServerEnds c r w x') : x = x' := by
  cases h with
  | drained hfit =>
    cases h' with
    | drained => rfl
    | panicked hlt => exact absurd hlt (UInt64.not_lt.mpr hfit)
  | panicked hlt =>
    cases h' with
    | drained hfit => exact absurd hlt (UInt64.not_lt.mpr hfit)
    | panicked => rfl
  | _ => cases h'; rfl

theorem undisturbed_server (c : Server.Config) (script : CallKind → List Entry) :
    ∃ x t t', Server.run transport c (Tape.ofEntries script) = some (x, t) ∧
      Server.run transport c (Tape.ofEntries (quiet script)) = some (x, t') ∧
      Undisturbed script x t.log t'.log := by
  obtain ⟨x, hrun, he⟩ := run_server_eq c (Tape.ofEntries script)
  obtain ⟨x', hrun', he'⟩ := run_server_eq c (Tape.ofEntries (quiet script))
  have hahead (s : CallKind → List Entry) : (Tape.ofEntries s).ahead = s := rfl
  rw [hahead] at hrun hrun' he he'
  rw [← stretched_serverPlan] at hrun he
  obtain ⟨hw, -⟩ := walk_stretched script (serverPlan c (quiet script)) (Tape.ofEntries script)
    (Tape.ofEntries (quiet script)) rfl rfl
  rw [sizes_stretched] at he
  rw [toldOwn?_quiet, toldPeer_quiet, hw] at he'
  obtain rfl := he.unique he'
  refine ⟨x, _, _, hrun, hrun', undisturbed_of_walk fun call e hw => ?_⟩
  rw [hw] at he
  obtain ⟨f, rfl⟩ : ∃ f, x = .returned (.error f) := by cases he <;> exact ⟨_, rfl⟩
  obtain ⟨hstep, hcause, -⟩ := he.charged
  exact ⟨f, rfl, hstep, hcause⟩

/-- Among the calls of a client a failure is charged to one in one way. -/
theorem Charged.unique {c : Client.Config} {m : Nat} {call : Call} {e : IoError} {f f' : Failure}
    (hcall : call ∈ c.approach m) (h : Charged c call e f) (h' : Charged c call e f') : f = f' := by
  have hlisten : f.step ≠ .listen := by
    intro hl
    have hname := h.step
    simp only [Client.Config.approach, List.cons_append, List.nil_append, List.mem_cons,
      List.mem_replicate] at hcall
    rcases hcall with rfl | rfl | rfl | ⟨-, rfl⟩ <;>
      simp [hl, Step.name, Call.kind, CallKind.name] at hname
  exact Failure.eq_of_cause h.cause h'.cause (Step.name_injective (h.step.trans h'.step.symm))
    (h.address.trans h'.address.symm) hlisten

/-- A plan of which no call fails, and the shutdown after it. -/
theorem walk_shutdown {t : Tape} {plan : List Call} (hw : (walk t plan).1 = none) :
    walk t (plan ++ [.shutdown .both]) =
      ((entry (walk t plan).2.ahead (.shutdown .both)).error?.map (.shutdown .both, ·),
        ((walk t plan).2.take (.shutdown .both)).2) := by
  have hx : (entry (walk t plan).2.ahead (.shutdown .both)).error? =
      (Call.shutdown .both).fault? (entry (walk t plan).2.ahead (.shutdown .both)) := rfl
  rw [walk_append hw, hx]
  cases hf : (Call.shutdown .both).fault? (entry (walk t plan).2.ahead (.shutdown .both)) with
  | some e => rw [walk_of_fault hf, Option.map_some]
  | none =>
    rw [walk_of_not_fault hf, Option.map_none]
    rfl

/-- A client that shuts its connection down shows one call more than its plan. -/
theorem undisturbed_closed {c : Client.Config} {own : Option Descriptor} {n : Nat}
    {plan : List Call}
    (hw : (walk (Tape.ofEntries script) (stretched script plan)).1 = none)
    (hw' : (walk (Tape.ofEntries (quiet script)) plan).1 = none) :
    let t := (walk (Tape.ofEntries script) (stretched script plan)).2
    let t' := (walk (Tape.ofEntries (quiet script)) plan).2
    Undisturbed script (.returned (closed c own n (entry t.ahead (.shutdown .both))))
      (t.take (.shutdown .both)).2.log (t'.take (.shutdown .both)).2.log := by
  intro t t'
  have hsnoc : stretched script (plan ++ [.shutdown .both]) =
      stretched script plan ++ [.shutdown .both] := stretched_snoc (fun _ => rfl) _ _
  have hwalk := walk_shutdown hw
  rw [← hsnoc] at hwalk
  have hend : Undisturbed script
      (.returned (closed c own n (entry t.ahead (.shutdown .both))))
      (walk (Tape.ofEntries script) (stretched script (plan ++ [.shutdown .both]))).2.log
      (walk (Tape.ofEntries (quiet script)) (plan ++ [.shutdown .both])).2.log := by
    refine undisturbed_of_walk fun call e he => ?_
    rw [hwalk, Option.map_eq_some_iff] at he
    obtain ⟨e', hx, he⟩ := he
    obtain ⟨rfl, rfl⟩ := Prod.mk.inj he
    refine ⟨.shutdown c.remote e', ?_, rfl, rfl⟩
    rw [closed, hx]
  rwa [hwalk, walk_shutdown hw'] at hend

/-- Two clients end alike whose calls up to the last send are a plan over the quiet script, and the
stretched plan. -/
theorem undisturbed_of_ends {c : Client.Config} {own : Option Descriptor} {m : Nat} {t t' : Tape}
    {o o' : Except Failure SendReport}
    (h : ClientEnds c own (Tape.ofEntries script) (stretched script (c.approach m)) o t)
    (h' : ClientEnds c own (Tape.ofEntries (quiet script)) (c.approach m) o' t') :
    o = o' ∧ Undisturbed script (.returned o) t.log t'.log := by
  obtain ⟨hw, hq⟩ : (walk (Tape.ofEntries (quiet script)) (c.approach m)).1 =
        (walk (Tape.ofEntries script) (stretched script (c.approach m))).1 ∧
      (walk (Tape.ofEntries (quiet script)) (c.approach m)).2.ahead =
        quiet (walk (Tape.ofEntries script) (stretched script (c.approach m))).2.ahead :=
    walk_stretched _ _ _ _ rfl rfl
  have hs : sizes (played script (cutOff script (stretched script (c.approach m)))) =
      sizes (played (quiet script) (cutOff (quiet script) (c.approach m))) := by
    rw [cutOff_stretched, sizes_stretched]
  have hn {n n' : Nat}
      (h₁ : sizes (played script (cutOff script (stretched script (c.approach m)))) = [n])
      (h₂ : sizes (played (quiet script) (cutOff (quiet script) (c.approach m))) = [n']) :
      n = n' := List.head_eq_of_cons_eq (h₁.symm.trans (hs.trans h₂))
  cases h with
  | broken hw₁ _ hf₁ =>
    cases h' with
    | broken hw₂ _ hf₂ =>
      rw [hw₁, hw₂, Option.some.injEq, Prod.mk.injEq] at hw
      obtain ⟨rfl, rfl⟩ := hw
      refine ⟨by rw [hf₁.unique (mem_of_walk_eq_some hw₂) hf₂], undisturbed_of_walk ?_⟩
      intro call e hw
      rw [hw₁, Option.some.injEq, Prod.mk.injEq] at hw
      obtain ⟨rfl, rfl⟩ := hw
      exact ⟨_, rfl, hf₁.step, hf₁.cause⟩
    | short hw₂ | closing hw₂ => simp [hw₁, hw₂] at hw
  | short hw₁ hm₁ hn₁ =>
    cases h' with
    | broken hw₂ => simp [hw₁, hw₂] at hw
    | short hw₂ hm₂ =>
      obtain rfl := hn hm₁ hm₂
      exact ⟨rfl, undisturbed_of_walk (by simp [hw₁])⟩
    | closing hw₂ hm₂ hn₂ =>
      obtain rfl := hn hm₁ hm₂
      exact absurd hn₁ hn₂
  | closing hw₁ hm₁ hn₁ =>
    cases h' with
    | broken hw₂ => simp [hw₁, hw₂] at hw
    | short hw₂ hm₂ hn₂ =>
      obtain rfl := hn hm₁ hm₂
      exact absurd hn₂ hn₁
    | closing hw₂ hm₂ =>
      obtain rfl := hn hm₁ hm₂
      exact ⟨by rw [hq, entry_quiet rfl], undisturbed_closed hw₁ hw₂⟩

theorem undisturbed_client (c : Client.Config) (script : CallKind → List Entry) :
    ∃ o t t', Client.run transport c (Tape.ofEntries script) = some (o, t) ∧
      Client.run transport c (Tape.ofEntries (quiet script)) = some (o, t') ∧
      Undisturbed script (.returned o) t.log t'.log := by
  obtain ⟨o, t, hrun, he⟩ := run_client_eq c (Tape.ofEntries script)
  obtain ⟨o', t', hrun', he'⟩ := run_client_eq c (Tape.ofEntries (quiet script))
  have hahead (s : CallKind → List Entry) : (Tape.ofEntries s).ahead = s := rfl
  rw [hahead, ← stretched_approach] at he
  rw [hahead, toldOwn?_quiet] at he'
  obtain ⟨rfl, hd⟩ := undisturbed_of_ends he he'
  exact ⟨o, t, t', hrun, hrun', hd⟩

/-- A server and a client over any script come to the result that they come to without the entries
that interrupt a transfer, and make the same calls but for those made again. -/
theorem undisturbed_of_script (script : CallKind → List Entry) :
    (∀ c : Server.Config, ∃ x t t',
      Server.run transport c (Tape.ofEntries script) = some (x, t) ∧
      Server.run transport c (Tape.ofEntries (quiet script)) = some (x, t') ∧
      Undisturbed script x t.log t'.log) ∧
    ∀ c : Client.Config, ∃ o t t',
      Client.run transport c (Tape.ofEntries script) = some (o, t) ∧
      Client.run transport c (Tape.ofEntries (quiet script)) = some (o, t') ∧
      Undisturbed script (.returned o) t.log t'.log :=
  ⟨fun c => undisturbed_server c script, fun c => undisturbed_client c script⟩

/-- A server over a script that interrupts the first receive twice, the one past the end of the
data, and then the shutdown. -/
theorem undisturbed_of_interrupting_script :
    let script : CallKind → List Entry := fun
      | .recv => [.fail (.system .intr), .fail (.custom .interrupted "signal"), .count 3,
        .fail (.plain .interrupted)]
      | .shutdown => [.fail (.system .intr), .plain]
      | _ => []
    let c : Server.Config := { receiveSize := 4 }
    ∃ f t t', Server.run transport c (Tape.ofEntries script) = some (.returned (.error f), t) ∧
      Server.run transport c (Tape.ofEntries (quiet script)) = some (.returned (.error f), t') ∧
      t.log = [.socket, .bind c.bind, .listen 1, .localAddr, .accept, .recv 4, .recv 4, .recv 4,
        .recv 4, .recv 4, .shutdown .both] ∧
      t'.log = [.socket, .bind c.bind, .listen 1, .localAddr, .accept, .recv 4, .recv 4,
        .shutdown .both] ∧
      f.step.name = "shutdown" ∧ f.cause? = some (.system .intr) := by
  intro script c
  obtain ⟨x, t, t', hrun, hrun', hd⟩ := (undisturbed_of_script script).1 c
  have hlog' : t'.log = [.socket, .bind c.bind, .listen 1, .localAddr, .accept, .recv 4, .recv 4,
      .shutdown .both] := by
    obtain ⟨_, hplan, -⟩ := run_server_eq c (Tape.ofEntries (quiet script))
    obtain ⟨-, rfl⟩ := Prod.mk.inj (Option.some.inj (hrun'.symm.trans hplan))
    exact (log_serverPlan c (quiet script)).trans (by decide)
  have hlog : t.log = [.socket, .bind c.bind, .listen 1, .localAddr, .accept, .recv 4, .recv 4,
      .recv 4, .recv 4, .recv 4, .shutdown .both] := by
    rw [hd.stretched, hlog']
    decide
  have hplayed : played script t.log = (played script t.log).dropLast ++
      [(.shutdown .both, .fail (.system .intr))] := by
    rw [hlog]
    decide
  obtain ⟨-, f, rfl, hstep, hcause⟩ := hd.halted _ _ _ _ hplayed (by decide) (by decide)
  exact ⟨f, t, t', hrun, hrun', hlog, hlog', hstep.trans (Call.word_eq (.shutdown .both)), hcause⟩

end Runs

end Script
end Handoff
