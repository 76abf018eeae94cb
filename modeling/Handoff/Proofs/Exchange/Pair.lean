import Handoff.Proofs.Exchange.Crowd
import Mathlib.Data.Prod.Lex
import Mathlib.Logic.Relation
import Mathlib.Order.WellFounded

/-!
A pair is a crowd of one client with nobody beside it. Whatever the order in which its two ends take
their steps, they come to the same end. The main statement is `outcome_of_steps`.
-/
namespace Handoff.Pair

open Loopback (Network Slot)
open Loopback.Network

namespace Ends

/-- One end takes a step. -/
inductive Step (e e' : Ends) : Prop where
  | server (h : e.serverStep = some e')
  | client (h : e.clientStep = some e')

/-- What a pair can come to. -/
def Reaches : Ends → Ends → Prop := Relation.ReflTransGen Step

def Finished (e : Ends) : Prop := e.server.exit?.isSome ∧ e.client.outcome?.isSome

def crowd (e : Ends) : Crowd := ⟨e.server, [(e.config, e.client)], e.network⟩

variable {e e' : Ends}

theorem Step.crowd (h : e.Step e') (target : Endpoint) :
    ∃ a, a ≠ .other ∧ Crowd.Step target e.crowd a e'.crowd := by
  cases h with
  | server h =>
    obtain ⟨⟨d, n⟩, hs, rfl⟩ := Option.map_eq_some_iff.mp h
    exact ⟨.server, by simp, .server hs⟩
  | client h =>
    obtain ⟨⟨p, n⟩, hs, rfl⟩ := Option.map_eq_some_iff.mp h
    exact ⟨.client 0, by simp, .client (i := 0) rfl hs⟩

theorem Step.config_eq (h : e.Step e') : e'.config = e.config := by
  cases h with
  | server h =>
    obtain ⟨x, -, rfl⟩ := Option.map_eq_some_iff.mp h
    rfl
  | client h =>
    obtain ⟨x, -, rfl⟩ := Option.map_eq_some_iff.mp h
    rfl

/-- The client's steps count first, then those of the server, and last the bytes under way. -/
def measure (e : Ends) : Nat ×ₗ Nat ×ₗ Nat :=
  toLex (e.client.rank, toLex (e.server.rank, e.network.buffered))

theorem Step.measure_lt (h : e.Step e') : e'.measure < e.measure := by
  cases h with
  | server h =>
    obtain ⟨⟨d, n⟩, hs, rfl⟩ := Option.map_eq_some_iff.mp h
    refine Prod.Lex.toLex_lt_toLex.mpr (.inr ⟨rfl, Prod.Lex.toLex_lt_toLex.mpr ?_⟩)
    exact Drain.rank_lt_or_budget_lt_of_step hs
  | client h =>
    obtain ⟨⟨p, n⟩, hs, rfl⟩ := Option.map_eq_some_iff.mp h
    exact Prod.Lex.toLex_lt_toLex.mpr (.inl (Delivery.rank_lt_of_step hs))

/-- No pair takes steps without end. -/
theorem exists_not_step (f : Nat → Ends) : ∃ k, ¬ (f k).Step (f (k + 1)) := by
  obtain ⟨k, hk⟩ := WellFounded.not_rel_apply_succ (r := (· < ·)) fun k => (f k).measure
  exact ⟨k, fun h => hk h.measure_lt⟩

end Ends

/-- The port that a pair's server listens on. -/
def serverPort (port : UInt32) : UInt32 := if port = anyPort then Loopback.firstPort else port

/-- The port that a pair's client is given: the first one, if the server has left it. -/
def clientPort (port : UInt32) : UInt32 := if port = 40000 then 40001 else 40000

/-- What the client of a pair is asked to do. -/
def config (cid port : UInt32) (payload : List UInt8) : Client.Config :=
  { Client.Config.at cid port with payload }

/-- The server of a pair, ready for its client. -/
def listener (cid port : UInt32) : Listener Nat where
  handle := ⟨0, .listening, some (Descriptor.bind cid port), none⟩
  own := Descriptor.local cid (serverPort port)
  room := 1024

/-- The network of a pair when the server is ready. -/
def network (cid port : UInt32) : Network where
  cid := cid
  registry := [(⟨cid, serverPort port⟩, some 0)]
  counter := if port = anyPort then 40001 else 40000
  slots := [.listening (Descriptor.local cid (serverPort port)) 0]
  queues := [⟨[], 1, false⟩]
  connections := []

/-- A pair whose client has not connected. -/
def unmet (cid port : UInt32) (payload : List UInt8) (client : Delivery Nat) (slots : List Slot) :
    Ends where
  config := config cid port payload
  server := .accepting (listener cid port)
  client
  network := { network cid port with slots := (network cid port).slots ++ slots }

/-- A pair whose client is about to connect. -/
def asking (cid port : UInt32) (payload : List UInt8) : Ends :=
  unmet cid port payload (.connecting (Delivery.caller 1)) [.fresh]

/-- What comes of a pair: both reports, the server's counts in words, or the failure of a client that
has nothing to send. -/
def outcome (cid port : UInt32) (payload : List UInt8) : Outcome :=
  if payload = [] then .error (.nothingSent (Descriptor.remote cid port))
  else .ok (.pair
    { own := Descriptor.local cid port
      peer := Descriptor.peer cid (clientPort port)
      bytesReceived := .ofNat payload.length
      reads := .ofNat ((payload.length + 1023) / 1024) }
    { own := some (Descriptor.local cid (clientPort port))
      remote := Descriptor.remote cid port
      bytesSent := payload.length })

theorem bind_eq (cid port : UInt32) :
    ({ Network.ofCid cid with slots := [.fresh] } : Network).bind 0 (Descriptor.bind cid port) =
      some (.ok (), { network cid port with
        registry := [(⟨cid, serverPort port⟩, none)]
        slots := [.bound (Descriptor.local cid (serverPort port))]
        queues := [] }) := by
  have hs : ({ Network.ofCid cid with slots := [.fresh] } : Network).slot 0 = .fresh := rfl
  have hc : (if (Descriptor.bind cid port).cid = anyCid then cid else
      (Descriptor.bind cid port).cid) = cid := ite_self _
  unfold Network.bind
  rw [hs]
  dsimp only [Network.ofCid]
  rw [hc]
  by_cases hp : port = anyPort
  · subst hp
    rfl
  · have hch (n : Network) : n.choosePort cid (Descriptor.bind cid port).port = some (port, n) :=
      if_neg hp
    rw [hch]
    simp [serverPort, hp, Loopback.Registry.has, network, Loopback.Registry.put, Network.setSlot]
    rfl

theorem listen_eq (cid port : UInt32) :
    Server.listen Network.transport (Server.Config.at cid port) (Network.ofCid cid) =
      some (.ok (listener cid port), network cid port) := by
  rw [Server.listen_eq]
  generalize hb : Network.bind _ _ _ = r
  obtain rfl := hb.symm.trans (bind_eq cid port)
  have hs : ({ network cid port with
      registry := [(⟨cid, serverPort port⟩, none)]
      slots := [.bound (Descriptor.local cid (serverPort port))]
      queues := [] } : Network).slot 0 = .bound (Descriptor.local cid (serverPort port)) := rfl
  have hput (q : Option Nat) : Loopback.Registry.put [(⟨cid, serverPort port⟩, none)]
      (Descriptor.local cid (serverPort port)).endpoint q = [(⟨cid, serverPort port⟩, q)] :=
    if_pos rfl
  dsimp only [Network.ofCid, List.length_nil]
  rw [Loopback.Network.listen_eq hs]
  dsimp only
  rw [hput]
  rfl

theorem start_eq (cid port : UInt32) (payload : List UInt8) :
    start cid port payload = some (.ok (unmet cid port payload .opening [])) := by
  rw [start, listen_eq]
  rfl

section Unmet

variable {cid port : UInt32} {payload : List UInt8} {p : Delivery Nat} {ss : List Slot} {e : Ends}

/-- A server whose client has not connected waits. -/
theorem serverStep_unmet : (unmet cid port payload p ss).serverStep = none := by
  have hs : (unmet cid port payload p ss).network.slot (listener cid port).handle.socket =
    .listening (Descriptor.local cid (serverPort port)) 0 := rfl
  have ha := accept_eq_none (q := 0) hs rfl rfl rfl
  have hd : (unmet cid port payload p ss).server.step Network.transport
      (unmet cid port payload p ss).network = none := by
    refine (Drain.step_accepting rfl).trans ?_
    rw [ha]
  rw [Ends.serverStep, hd]
  rfl

theorem clientStep_opening : (unmet cid port payload .opening []).clientStep =
    some (asking cid port payload) := rfl

theorem allocate?_eq (hp : port ≠ anyPort) :
    Loopback.allocate? (network cid port).registry cid (network cid port).counter =
      some (clientPort port, Loopback.nextPort (clientPort port)) := by
  have hc : (network cid port).counter = 40000 := if_neg hp
  have hr : (network cid port).registry = [(⟨cid, port⟩, some 0)] := by
    simp [network, serverPort, hp]
  have hhas (q : UInt32) : Loopback.Registry.has [(⟨cid, port⟩, some 0)] ⟨cid, q⟩ =
      decide (q = port) := by
    by_cases hq : q = port
    · simp [Loopback.Registry.has, Loopback.Registry.get?_cons, hq]
    · simp [Loopback.Registry.has, Loopback.Registry.get?_cons, hq]
  rw [hc, hr, Loopback.allocate?]
  by_cases h : port = 40000
  · subst h
    have hn : Loopback.nextPort 40000 = 40001 := by decide
    simp [Loopback.freePort?, hhas, clientPort, hn]
  · simp [Loopback.freePort?, hhas, clientPort, h, Ne.symm h]

theorem connect_eq (hp : port ≠ anyPort) :
    ∃ n, (asking cid port payload).network.connect 1 (Descriptor.remote cid port) =
        some (.ok (), n) ∧
      n.slot 1 = .connected (Descriptor.local cid (clientPort port)) 0 .caller := by
  have hs : (asking cid port payload).network.slot 1 = .fresh := rfl
  have hq : (asking cid port payload).network.registry.queue?
      (Descriptor.remote cid port).endpoint = some 0 := by
    have he : (Descriptor.remote cid port).endpoint = ⟨cid, port⟩ := rfl
    have hr : (asking cid port payload).network.registry = [(⟨cid, port⟩, some 0)] := by
      simp [asking, unmet, network, serverPort, hp]
    simp [hr, he, Loopback.Registry.queue?, Loopback.Registry.get?_cons]
  have ha : Loopback.allocate? (asking cid port payload).network.registry
      (asking cid port payload).network.cid (asking cid port payload).network.counter =
        some (clientPort port, Loopback.nextPort (clientPort port)) := allocate?_eq hp
  unfold Network.connect
  rw [hs]
  unfold Network.connectFrom route
  rw [hq, ha]
  exact ⟨_, rfl, rfl⟩

theorem clientStep_connecting (hp : port ≠ anyPort) :
    ∃ n, n.slot 1 = .connected (Descriptor.local cid (clientPort port)) 0 .caller ∧
      (asking cid port payload).client.step Network.transport (config cid port payload)
        (asking cid port payload).network =
          some (.locating (Delivery.joined (config cid port payload) 1), n) := by
  obtain ⟨n, hn, hslot⟩ := @connect_eq cid port payload hp
  refine ⟨n, hslot, (Delivery.step_connecting _).trans ?_⟩
  exact hn ▸ rfl

/-- There is no server at the wildcard port. -/
theorem connect_anyPort :
    (asking cid anyPort payload).network.connect 1 (Descriptor.remote cid anyPort) =
      some (.error (.plain .connectionRefused), (asking cid anyPort payload).network) := by
  have hs : (asking cid anyPort payload).network.slot 1 = .fresh := rfl
  have hq : (asking cid anyPort payload).network.registry.queue?
      (Descriptor.remote cid anyPort).endpoint = none := by
    have he : (Descriptor.remote cid anyPort).endpoint = ⟨cid, anyPort⟩ := rfl
    have hr : (asking cid anyPort payload).network.registry =
        [(⟨cid, Loopback.firstPort⟩, some 0)] := rfl
    have hne : anyPort ≠ Loopback.firstPort := by decide
    simp [hr, he, Loopback.Registry.queue?, Loopback.Registry.get?_cons, hne]
  unfold Network.connect
  rw [hs]
  unfold Network.connectFrom route
  rw [hq]

/-- A pair starts as a crowd that is sound. -/
theorem sound_opening (hp : port ≠ anyPort) :
    Crowd.Sound (listener cid port).own.endpoint (unmet cid port payload .opening []).crowd ∧
      (unmet cid port payload .opening []).crowd.Alone := by
  obtain ⟨q, tr, hrun, -⟩ := Server.of_listen (listen_eq cid port)
  have hstart : (unmet cid port payload .opening []).crowd =
      Crowd.start (listener cid port) [config cid port payload]
        (network cid port) := rfl
  rw [hstart]
  constructor
  · refine Crowd.sound_start (wired_of_run hrun (wired_ofCid cid))
      (owned_of_run hrun (owned_ofCid cid)) Nat.one_pos ?_
    intro c hc
    rw [List.mem_singleton.mp hc]
    simp only [listener, serverPort, if_neg hp]
    rfl
  · intro s hs
    cases s with
    | zero => exact List.mem_singleton_self _
    | succ s => exact absurd rfl hs

theorem sound_of_step {target : Endpoint} {e' : Ends} (hx : Crowd.Sound target e.crowd)
    (ha : e.crowd.Alone) (hd : e.server.Staged) (h : e.Step e') :
    Crowd.Sound target e'.crowd ∧ e'.crowd.Alone := by
  obtain ⟨a, hne, hs⟩ := h.crowd target
  obtain ⟨event, ht, -⟩ := hx.turn_of_step hd hs
  exact ⟨hx.turn ht, ha.turn ht hne⟩

end Unmet

section Met

variable {cid port : UInt32} {payload : List UInt8} {e e' : Ends}

/-- A pair whose client has connected. -/
structure Met (cid port : UInt32) (payload : List UInt8) (e : Ends) : Prop where
  config : e.config = config cid port payload
  sound : Crowd.Sound (listener cid port).own.endpoint e.crowd
  alone : e.crowd.Alone
  meets : Crowd.Meets (listener cid port) 0 e.crowd
    (some (0, Descriptor.local cid (clientPort port)))

/-- The step in which the client connects. -/
theorem met_of_step (hp : port ≠ anyPort)
    (h : (asking cid port payload).Step e) : Met cid port payload e := by
  obtain ⟨hx₀, ha₀⟩ := @sound_opening cid port payload hp
  obtain ⟨hx, ha⟩ := sound_of_step hx₀ ha₀ rfl (.client clientStep_opening)
  obtain ⟨hx', ha'⟩ := sound_of_step hx ha rfl h
  refine ⟨h.config_eq, hx', ha', ?_⟩
  cases h with
  | server h => exact absurd (serverStep_unmet.symm.trans h) (by simp)
  | client h =>
    obtain ⟨n, hslot, hstep⟩ := @clientStep_connecting cid port payload hp
    have hnobody : Crowd.Meets (listener cid port) 0 (asking cid port payload).crowd none :=
      .nobody rfl rfl rfl
    have hmeets := hnobody.step hx rfl (Nat.zero_lt_succ _) (.client (i := 0) rfl hstep)
    have haddr : n.localAddr 1 = some (.ok (Descriptor.local cid (clientPort port)), n) :=
      localAddr_of_own? (by rw [hslot]; rfl)
    obtain rfl := Option.some.inj (h.symm.trans (congrArg (Option.map _) hstep))
    have hjoined : Crowd.joined? (.client 0, Ends.crowd { unmet cid port payload
        (.locating (Delivery.joined (config cid port payload) 1)) [] with
          network := n }) = some (0, Descriptor.local cid (clientPort port)) := by
      have h0 : (Delivery.joined (config cid port payload) 1).socket = 1 := rfl
      simp only [Crowd.joined?, Ends.crowd, unmet, List.getElem?_cons_zero, h0, haddr]
    rw [Option.none_or] at hmeets
    exact hjoined ▸ hmeets

theorem Met.step (h : Met cid port payload e) (hs : e.Step e') : Met cid port payload e' := by
  have hd := h.meets.staged rfl
  obtain ⟨hx, ha⟩ := sound_of_step h.sound h.alone hd hs
  obtain ⟨a, -, hcrowd⟩ := hs.crowd (listener cid port).own.endpoint
  exact ⟨hs.config_eq.trans h.config, hx, ha, h.meets.step h.sound rfl (Nat.zero_lt_succ _) hcrowd⟩

/-- The server of a pair has its buffer. -/
theorem room_le (cid port : UInt32) : (listener cid port).room ≤ largestBuffer :=
  (by decide : (1024 : UInt64) ≤ largestBuffer)

theorem not_lost (cid port : UInt32) (d : Drain Nat) : ¬d.Lost (listener cid port) :=
  fun h => UInt64.not_lt.mpr (room_le cid port) h.1

/-- The client of a pair holds its connection, and the server serves it. -/
theorem Met.serves (h : Met cid port payload e) :
    ∃ k, e.client.Holds e.config (Descriptor.local cid (clientPort port)) k e.network ∧
      Drain.Serves (listener cid port) 0 e.config (Descriptor.local cid (clientPort port)) k
        e.network e.client e.server :=
  (h.meets.serves rfl).resolve_right (not_lost cid port _)

/-- A client that has connected is never kept waiting. -/
theorem Met.client_goes_on (h : Met cid port payload e) :
    (∃ e', e.clientStep = some e') ∨ e.client.outcome?.isSome := by
  obtain ⟨k, hholds, -⟩ := h.serves
  have hfits : e.client.Fits e.config e.network := h.sound.fits _ (List.mem_singleton_self _)
  rcases hfits.goes_on h.sound.wired (fun i hi => by rw [hi] at hholds; exact hholds.elim) with
    hstep | hdone
  · obtain ⟨⟨p, n⟩, hs⟩ := Option.isSome_iff_exists.mp hstep
    exact .inl ⟨_, congrArg (Option.map _) hs⟩
  · exact .inr hdone

/-- A server whose client is done is never kept waiting. -/
theorem Met.server_goes_on (h : Met cid port payload e) (hc : e.client.outcome?.isSome) :
    (∃ e', e.serverStep = some e') ∨ e.server.exit?.isSome := by
  rcases h.meets.goes_on h.sound.wired rfl rfl hc with hstep | hdone
  · obtain ⟨⟨d, n⟩, hs⟩ := Option.isSome_iff_exists.mp hstep
    exact .inl ⟨_, congrArg (Option.map _) hs⟩
  · exact .inr hdone

/-- What a pair comes to whose client has connected. -/
theorem Met.outcome_eq (h : Met cid port payload e) (hp : port ≠ anyPort) (hf : e.Finished) :
    e.outcome? = some (outcome cid port payload) := by
  obtain ⟨so, hso⟩ := Option.isSome_iff_exists.mp hf.1
  obtain ⟨co, hco⟩ := Option.isSome_iff_exists.mp hf.2
  have hclient : co = Delivery.kept e.config (Descriptor.local cid (clientPort port)) :=
    h.meets.kept (not_lost cid port _) rfl hco
  obtain ⟨i, own, c, p, hw, hi, hserver⟩ := h.meets.exit hso
  rw [if_pos (room_le cid port)] at hserver
  cases hw
  cases hi
  have hport : serverPort port = port := if_neg hp
  have hpayload : (Pair.config cid port payload).payload = payload := rfl
  rw [Ends.outcome?, hso, hco, hserver, hclient, h.config]
  by_cases hn : payload = []
  · simp only [Delivery.kept, outcome, hn, if_true]
    rfl
  · simp only [Delivery.kept, outcome, hpayload, hn, if_false, Listener.drained, listener, hport]
    rfl

theorem Met.registry_eq (h : Met cid port payload e) (hf : e.Finished) :
    e.network.registry = [] := by
  obtain ⟨so, hso⟩ := Option.isSome_iff_exists.mp hf.1
  obtain ⟨co, hco⟩ := Option.isSome_iff_exists.mp hf.2
  have hsockets : e.crowd.sockets = [] := by
    simp [Crowd.sockets, Crowd.callers, Ends.crowd, Drain.of_exit? hso,
      Delivery.of_outcome? hco, Drain.sockets, Delivery.sockets]
  have hclosed (s : Nat) : e.network.slot s = .closed := by
    by_contra hs
    have hm := h.alone s hs
    rw [hsockets] at hm
    simp at hm
  exact List.length_eq_zero_iff.mp (boundEndpoints_of_closed h.sound.owned hclosed)

end Met

section Stands

variable {cid port : UInt32} {payload : List UInt8} {e e' : Ends}

/-- Where a pair can stand whose server is where the client looks for it. -/
inductive Stands (cid port : UInt32) (payload : List UInt8) : Ends → Prop where
  | opening : Stands cid port payload (unmet cid port payload .opening [])
  | connecting : Stands cid port payload (asking cid port payload)
  | met {e : Ends} (h : Met cid port payload e) : Stands cid port payload e

theorem Stands.step (hp : port ≠ anyPort) (h : Stands cid port payload e) (hs : e.Step e') :
    Stands cid port payload e' := by
  cases h with
  | opening =>
    cases hs with
    | server h => exact absurd (serverStep_unmet.symm.trans h) (by simp)
    | client h =>
      rw [clientStep_opening, Option.some.injEq] at h
      rw [← h]
      exact .connecting
  | connecting => exact .met (met_of_step hp hs)
  | met h => exact .met (h.step hs)

theorem Stands.reaches (hp : port ≠ anyPort) (h : Stands cid port payload e)
    (hr : e.Reaches e') : Stands cid port payload e' := by
  induction hr with
  | refl => exact h
  | tail _ hs ih => exact ih.step hp hs

/-- The client of a pair is never kept waiting. -/
theorem Stands.client_goes_on (hp : port ≠ anyPort) (h : Stands cid port payload e) :
    (∃ e', e.clientStep = some e') ∨ e.client.outcome?.isSome := by
  cases h with
  | opening => exact .inl ⟨_, clientStep_opening⟩
  | connecting =>
    obtain ⟨n, -, hs⟩ := @clientStep_connecting cid port payload hp
    exact .inl ⟨_, congrArg (Option.map _) hs⟩
  | met h => exact h.client_goes_on

/-- The two ends of a pair never wait for each other. -/
theorem Stands.goes_on (hp : port ≠ anyPort) (h : Stands cid port payload e) (hf : ¬ e.Finished) :
    ∃ e', e.Step e' := by
  rcases h.client_goes_on hp with ⟨e', he⟩ | hdone
  · exact ⟨e', .client he⟩
  · cases h with
    | opening => simp [unmet, Delivery.outcome?] at hdone
    | connecting => simp [asking, unmet, Delivery.outcome?] at hdone
    | met h =>
      rcases h.server_goes_on hdone with ⟨e', he⟩ | hserver
      · exact ⟨e', .server he⟩
      · exact absurd ⟨hserver, hdone⟩ hf

/-- A pair comes to one end only. -/
theorem Stands.finished (hp : port ≠ anyPort) (h : Stands cid port payload e) (hf : e.Finished) :
    e.outcome? = some (outcome cid port payload) ∧ e.network.registry = [] := by
  cases h with
  | opening => simp [Ends.Finished, unmet, Delivery.outcome?] at hf
  | connecting => simp [Ends.Finished, asking, unmet, Delivery.outcome?] at hf
  | met h => exact ⟨h.outcome_eq hp hf, h.registry_eq hf⟩

end Stands

section Astray

variable {cid : UInt32} {payload : List UInt8} {e e' : Ends}

def refusal (cid : UInt32) : Except Failure SendReport :=
  .error (.connect (Descriptor.remote cid anyPort) (.plain .connectionRefused))

/-- Where a pair can stand whose client looks for the server at the wildcard port. -/
inductive Astray (cid : UInt32) (payload : List UInt8) : Ends → Prop where
  | opening : Astray cid payload (unmet cid anyPort payload .opening [])
  | connecting : Astray cid payload (asking cid anyPort payload)
  | refused : Astray cid payload (unmet cid anyPort payload (.leaving [1] (refusal cid)) [.fresh])
  | left : Astray cid payload (unmet cid anyPort payload (.leaving [] (refusal cid)) [.closed])

theorem clientStep_refused : (asking cid anyPort payload).clientStep =
    some (unmet cid anyPort payload (.leaving [1] (refusal cid)) [.fresh]) := by
  have hstep : (asking cid anyPort payload).client.step Network.transport
      (config cid anyPort payload) (asking cid anyPort payload).network =
        some (.leaving [1] (refusal cid), (asking cid anyPort payload).network) := by
    refine (Delivery.step_connecting _).trans ?_
    exact @connect_anyPort cid payload ▸ rfl
  exact congrArg (Option.map _) hstep

theorem clientStep_left :
    (unmet cid anyPort payload (.leaving [1] (refusal cid)) [.fresh]).clientStep =
      some (unmet cid anyPort payload (.leaving [] (refusal cid)) [.closed]) := rfl

/-- The server waits, and has no outcome. -/
theorem Astray.server (h : Astray cid payload e) :
    e.serverStep = none ∧ e.server.exit? = none := by
  cases h with
  | opening => exact ⟨serverStep_unmet, rfl⟩
  | connecting => exact ⟨serverStep_unmet, rfl⟩
  | refused => exact ⟨serverStep_unmet, rfl⟩
  | left => exact ⟨serverStep_unmet, rfl⟩

/-- The client goes on until it is refused. -/
theorem Astray.client (h : Astray cid payload e) :
    (∃ e', e.clientStep = some e' ∧ Astray cid payload e') ∧ e.client.outcome? = none ∨
      e.clientStep = none ∧ e.client.outcome? = some (refusal cid) := by
  cases h with
  | opening => exact .inl ⟨⟨_, clientStep_opening, .connecting⟩, rfl⟩
  | connecting => exact .inl ⟨⟨_, clientStep_refused, .refused⟩, rfl⟩
  | refused => exact .inl ⟨⟨_, clientStep_left, .left⟩, rfl⟩
  | left => exact .inr ⟨rfl, rfl⟩

theorem Astray.step (h : Astray cid payload e) (hs : e.Step e') : Astray cid payload e' := by
  cases hs with
  | server hs => exact absurd (h.server.1.symm.trans hs) (by simp)
  | client hs =>
    rcases h.client with ⟨⟨x, hx, ha⟩, -⟩ | ⟨hn, -⟩
    · exact Option.some.inj (hx.symm.trans hs) ▸ ha
    · exact absurd (hn.symm.trans hs) (by simp)

theorem Astray.reaches (h : Astray cid payload e) (hr : e.Reaches e') : Astray cid payload e' := by
  induction hr with
  | refl => exact h
  | tail _ hs ih => exact ih.step hs

end Astray

namespace Ends

variable {e : Ends}

theorem finished_of_outcome? {o : Outcome} (h : e.outcome? = some o) : e.Finished := by
  unfold outcome? at h
  split at h
  · exact ⟨by simp_all, by simp_all⟩
  · exact ⟨by simp_all, by simp_all⟩
  · exact ⟨by simp_all, by simp_all⟩
  · simp at h

def advanceClient (e : Ends) : Ends :=
  let r := e.client.advance Network.transport e.config e.network
  { e with client := r.1, network := r.2 }

def advanceServer (e : Ends) : Ends :=
  let r := e.server.advance Network.transport e.network
  { e with server := r.1, network := r.2 }

theorem advanceClient_of_none (h : e.clientStep = none) : e.advanceClient = e := by
  have hs := Option.map_eq_none_iff.mp h
  rw [advanceClient, Delivery.advance_eq, hs]

theorem advanceClient_of_some {e' : Ends} (h : e.clientStep = some e') :
    e.advanceClient = e'.advanceClient := by
  obtain ⟨⟨p, n⟩, hs, rfl⟩ := Option.map_eq_some_iff.mp h
  rw [advanceClient, Delivery.advance_eq, hs]
  rfl

theorem advanceServer_of_none (h : e.serverStep = none) : e.advanceServer = e := by
  have hs := Option.map_eq_none_iff.mp h
  rw [advanceServer, Drain.advance_eq, hs]

theorem advanceServer_of_some {e' : Ends} (h : e.serverStep = some e') :
    e.advanceServer = e'.advanceServer := by
  obtain ⟨⟨d, n⟩, hs, rfl⟩ := Option.map_eq_some_iff.mp h
  rw [advanceServer, Drain.advance_eq, hs]
  rfl

/-- Taking all the steps of one kind ends where there are no more of them. -/
theorem reaches_of_advance {f : Ends → Option Ends} {g : Ends → Ends}
    (hf : ∀ {e e' : Ends}, f e = some e' → e.Step e') (hnone : ∀ {e : Ends}, f e = none → g e = e)
    (hsome : ∀ {e e' : Ends}, f e = some e' → g e = g e') (e : Ends) :
    e.Reaches (g e) ∧ f (g e) = none := by
  induction hm : e.measure using WellFoundedLT.induction generalizing e with
  | _ m ih =>
    cases hs : f e with
    | none =>
      rw [hnone hs]
      exact ⟨.refl, hs⟩
    | some e' =>
      have hstep : e.Step e' := hf hs
      obtain ⟨hr, hn⟩ := ih e'.measure (hm ▸ hstep.measure_lt) e' rfl
      rw [hsome hs]
      exact ⟨hr.head hstep, hn⟩

theorem reaches_advanceClient (e : Ends) :
    e.Reaches e.advanceClient ∧ e.advanceClient.clientStep = none :=
  reaches_of_advance .client advanceClient_of_none advanceClient_of_some e

theorem reaches_advanceServer (e : Ends) :
    e.Reaches e.advanceServer ∧ e.advanceServer.serverStep = none :=
  reaches_of_advance .server advanceServer_of_none advanceServer_of_some e

/-- Settling is one of the orders in which the ends can take their steps. -/
theorem reaches_settle (e : Ends) : e.Reaches e.settle :=
  (reaches_advanceClient e).1.trans (reaches_advanceServer e.advanceClient).1

end Ends

/-- A pair that is run with its client first comes to the end that all its runs have. -/
theorem run_eq (cid port : UInt32) (payload : List UInt8) :
    run cid port payload = if port = anyPort then none else some (outcome cid port payload) := by
  have hrun : run cid port payload = (unmet cid port payload .opening []).settle.outcome? := by
    rw [run, start_eq]
  have hr := Ends.reaches_settle (unmet cid port payload .opening [])
  rw [hrun]
  by_cases hp : port = anyPort
  · subst hp
    rw [if_pos rfl, Ends.outcome?, (Astray.opening.reaches hr).server.2]
  · rw [if_neg hp]
    obtain ⟨hr₁, hn₁⟩ := Ends.reaches_advanceClient (unmet cid port payload .opening [])
    have hn := (Ends.reaches_advanceServer (unmet cid port payload .opening []).advanceClient).2
    have hstands := Stands.opening.reaches hp hr
    refine (hstands.finished hp ?_).1
    by_contra hf
    obtain ⟨e', hs⟩ := hstands.goes_on hp hf
    cases hs with
    | server hs => exact absurd (hn.symm.trans hs) (by simp)
    | client hs =>
      rcases (Stands.opening.reaches hp hr₁).client_goes_on hp with ⟨e'', he⟩ | hdone
      · exact absurd (hn₁.symm.trans he) (by simp)
      · obtain ⟨o, ho⟩ := Option.isSome_iff_exists.mp hdone
        have hleft : (unmet cid port payload .opening []).settle.client = .leaving [] o :=
          Delivery.of_outcome? ho
        rw [Ends.clientStep, hleft] at hs
        simp [Delivery.step] at hs

/-- Whatever the order in which the two ends take their steps, they are done after finitely many,
neither keeps the other waiting for good, and they come to one outcome with nothing left registered.
At the wildcard port, though, the server gets a port of its own where the client does not look for
it: the client is refused, and the server waits forever. -/
theorem outcome_of_steps (cid port : UInt32) (payload : List UInt8) :
    ∃ e₀, start cid port payload = some (.ok e₀) ∧
      (∀ f : Nat → Ends, f 0 = e₀ → ∃ k, ¬ (f k).Step (f (k + 1))) ∧
      (port ≠ anyPort → ∀ e, e₀.Reaches e →
        (¬ e.Finished → ∃ e', e.Step e') ∧
        (e.Finished → e.outcome? = some (outcome cid port payload) ∧ e.network.registry = [])) ∧
      (port = anyPort → ∀ e, e₀.Reaches e →
        e.serverStep = none ∧ e.server.exit? = none ∧
        ((∃ e', e.clientStep = some e') ∧ e.client.outcome? = none ∨
          e.client.outcome? = some
            (.error (.connect (Descriptor.remote cid port) (.plain .connectionRefused))))) := by
  refine ⟨_, start_eq cid port payload, fun f _ => Ends.exists_not_step f, ?_, ?_⟩
  · intro hp e hr
    have hstands := Stands.opening.reaches hp hr
    exact ⟨hstands.goes_on hp, hstands.finished hp⟩
  · rintro rfl e hr
    have hastray := Astray.opening.reaches hr
    refine ⟨hastray.server.1, hastray.server.2, ?_⟩
    rcases hastray.client with ⟨⟨e', he, -⟩, ho⟩ | ⟨-, ho⟩
    · exact .inl ⟨⟨e', he⟩, ho⟩
    · exact .inr ho

/-- The server of this pair has the first of the ports that are handed out. -/
theorem outcome_of_steps_at_firstPort :
    ∃ e₀ e, start 3 40000 [104, 105] = some (.ok e₀) ∧ e₀.Reaches e ∧ e.Finished ∧
      e.outcome? = some (.ok (.pair
        ⟨Descriptor.local 3 40000, Descriptor.peer 3 40001, 2, 1⟩
        ⟨some (Descriptor.local 3 40001), Descriptor.remote 3 40000, 2⟩)) := by
  obtain ⟨e₀, h₀, -, h, -⟩ := outcome_of_steps 3 40000 [104, 105]
  have hrun : e₀.settle.outcome? = some (outcome 3 40000 [104, 105]) := by
    have hr := run_eq 3 40000 [104, 105]
    rwa [run, h₀] at hr
  have hf := Ends.finished_of_outcome? hrun
  have hr := Ends.reaches_settle e₀
  exact ⟨e₀, e₀.settle, h₀, hr, hf, ((h (by decide) _ hr).2 hf).1⟩

end Handoff.Pair
