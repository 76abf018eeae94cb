import Handoff.Report
import Handoff.Proofs.Address.Equality
import Handoff.Proofs.Json.Members

/-!
What can be told from the JSON value of an outcome. A report comes back from the value of a success,
each of its descriptors from an object of its own, and no value of a success is that of a failure.
Values are compared with their members sorted, for an order of members is no part of a value. The
main statement is `reports_of_values`.
-/
namespace Handoff

open Json

/-! ### Descriptors -/

namespace Descriptor

variable {d : Descriptor}

theorem Setting.sorted_member (x : Setting) : x.member.2.sorted = x.member.2 := by cases x <;> rfl

/-- The text of a descriptor writes its values with the members sorted, too. -/
theorem writes_sorted (d : Descriptor) : d.fields.Writes d.toJson.sorted.compact.toList := by
  let before (x y : Setting) : Bool := decide (x.member.1 ≤ y.member.1)
  let xs := d.fields.settings.mergeSort before
  have hmap : (d.fields.settings.map Setting.member).map (fun m => (m.1, m.2.sorted)) =
      d.fields.settings.map Setting.member := by
    simp [Setting.sorted_member]
  have hsort : xs.map Setting.member =
      (d.fields.settings.map Setting.member).mergeSort fun a b => decide (a.1 ≤ b.1) :=
    List.map_mergeSort fun _ _ _ _ => rfl
  have hsorted : d.toJson.sorted = .object (xs.map Setting.member) := by
    rw [toJson_eq, sorted, sortedMembers_eq, hmap, hsort]
  rw [hsorted]
  exact writes_object (List.mergeSort_perm _ _)

/-- A descriptor comes back from its text with the members sorted. -/
theorem parse_sorted (h : Standard d) : parse d.toJson.sorted.compact.toList = .ok d :=
  h.parse_of_writes d.writes_sorted

theorem distinct_toJson (d : Descriptor) : d.toJson.Distinct := by
  refine ⟨?_, ?_⟩
  · have hnames : ["family", "reserved", "port", "cid", "flags", "len", "role"].Nodup := by decide
    exact hnames
  · simp [DistinctMembers, count, Distinct]

/-- The descriptor that a value is. -/
def ofJson? (v : Json) : Option Descriptor := (parse v.compact.toList).toOption

theorem ofJson?_sorted (h : Standard d) : ofJson? d.toJson.sorted = some d := by
  rw [ofJson?, parse_sorted h]
  rfl

end Descriptor

/-! ### Reports -/

/-- The descriptors in a report, with the places where they stand. -/
def DrainReport.descriptors (r : DrainReport) : List (List String × Descriptor) :=
  [(["local"], r.own), (["peer"], r.peer)]

def SendReport.descriptors (r : SendReport) : List (List String × Descriptor) :=
  (r.own.map fun d => (["local"], d)).toList ++ [(["remote"], r.remote)]

def Report.descriptors : Report → List (List String × Descriptor)
  | server r => r.descriptors
  | client r => r.descriptors
  | pair s c =>
    s.descriptors.map (fun x => ("server" :: x.1, x.2)) ++
      c.descriptors.map (fun x => ("client" :: x.1, x.2))

/-- Places of descriptors that there are. -/
def Genuine (places : List (List String × Descriptor)) : Prop :=
  ∀ x ∈ places, Descriptor.Obtainable x.2

/-- The number that a value counts. -/
def Json.count? : Json → Option Nat
  | .number (.ofNat n) => some n
  | _ => none

def DrainReport.ofJson? (v : Json) : Option DrainReport := do
  let own ← (v.member? "local").bind Descriptor.ofJson?
  let peer ← (v.member? "peer").bind Descriptor.ofJson?
  let bytes ← (v.member? "bytes_received").bind Json.count?
  let reads ← (v.member? "reads").bind Json.count?
  some ⟨own, peer, .ofNat bytes, .ofNat reads⟩

/-- What a value is that may be null. -/
def Json.optional? {α : Type} (f : Json → Option α) : Json → Option (Option α)
  | .null => some none
  | v => (f v).map some

def SendReport.ofJson? (v : Json) : Option SendReport := do
  let own ← (v.member? "local").bind (Json.optional? Descriptor.ofJson?)
  let remote ← (v.member? "remote").bind Descriptor.ofJson?
  let bytesSent ← (v.member? "bytes_sent").bind Json.count?
  some { own, remote, bytesSent }

/-- The report that a value is. -/
def Report.ofJson? (v : Json) : Option Report :=
  match v.member? "role" with
  | some (.text "server") => (DrainReport.ofJson? v).map server
  | some (.text "client") => (SendReport.ofJson? v).map client
  | some (.text "pair") => do
    let s ← (v.member? "server").bind DrainReport.ofJson?
    let c ← (v.member? "client").bind SendReport.ofJson?
    some (pair s c)
  | _ => none

/-- The report in the value of an outcome. -/
def Report.ofOutcome? (v : Json) : Option Report := (v.member? "report").bind Report.ofJson?

/-! ### Names -/

theorem DrainReport.distinct_toJson (r : DrainReport) : r.toJson.Distinct := by
  refine ⟨?_, ?_⟩
  · have hnames : ["local", "peer", "bytes_received", "reads"].Nodup := by decide
    exact hnames
  · simp [members, DistinctMembers, count, Distinct, Descriptor.distinct_toJson]

theorem SendReport.distinct_toJson (r : SendReport) : r.toJson.Distinct := by
  refine ⟨?_, ?_⟩
  · have hnames : ["local", "remote", "bytes_sent"].Nodup := by decide
    exact hnames
  · cases hr : r.own <;>
      simp [members, hr, Json.optional, DistinctMembers, count, Distinct,
        Descriptor.distinct_toJson]

/-- The role of a report is no member of what it reports. -/
theorem Report.distinct_toJson (r : Report) : r.toJson.Distinct := by
  cases r with
  | server r =>
    refine ⟨?_, trivial, r.distinct_toJson.2⟩
    have hnames : ["role", "local", "peer", "bytes_received", "reads"].Nodup := by decide
    exact hnames
  | client r =>
    refine ⟨?_, trivial, r.distinct_toJson.2⟩
    have hnames : ["role", "local", "remote", "bytes_sent"].Nodup := by decide
    exact hnames
  | pair s c =>
    refine ⟨?_, trivial, s.distinct_toJson, c.distinct_toJson, trivial⟩
    have hnames : ["role", "server", "client"].Nodup := by decide
    exact hnames

theorem distinct_outcomeJson (o : Outcome) : (outcomeJson o).Distinct := by
  cases o with
  | ok r =>
    refine ⟨?_, trivial, trivial, r.distinct_toJson, trivial⟩
    have hnames : ["ok", "code", "report"].Nodup := by decide
    exact hnames
  | error f =>
    refine ⟨?_, trivial, trivial, trivial, trivial, trivial⟩
    have hnames : ["ok", "code", "step", "error"].Nodup := by decide
    exact hnames

/-! ### Reading back -/

variable {v : Json}

theorem member?_tagged {tag name : String} (members : List (String × Json)) (h : name ≠ "role") :
    (Json.object (("role", .text tag) :: members)).member? name =
      (Json.object members).member? name := by
  have hne : (name == "role") = false := beq_eq_false_iff_ne.mpr h
  rw [member?, member?, List.lookup_cons, hne]

theorem DrainReport.ofJson?_eq {r : DrainReport} (h : Genuine r.descriptors)
    (hv : ∀ name ≠ "role", v.member? name = (r.toJson.member? name).map sorted) :
    ofJson? v = some r := by
  have ho : r.own.Standard := (h (["local"], r.own) (by simp [descriptors])).standard
  have hp : r.peer.Standard := (h (["peer"], r.peer) (by simp [descriptors])).standard
  have hown : v.member? "local" = some r.own.toJson.sorted := hv _ (by decide)
  have hpeer : v.member? "peer" = some r.peer.toJson.sorted := hv _ (by decide)
  have hbytes : v.member? "bytes_received" = some (.count r.bytesReceived.toNat) :=
    hv _ (by decide)
  have hreads : v.member? "reads" = some (.count r.reads.toNat) := hv _ (by decide)
  have hcounts : (⟨r.own, r.peer, .ofNat r.bytesReceived.toNat, .ofNat r.reads.toNat⟩ :
      DrainReport) = r := by rw [UInt64.ofNat_toNat, UInt64.ofNat_toNat]
  rw [ofJson?, hown, hpeer, hbytes, hreads, Option.bind_some, Option.bind_some,
    Descriptor.ofJson?_sorted ho, Descriptor.ofJson?_sorted hp]
  exact congrArg some hcounts

theorem SendReport.ofJson?_eq {r : SendReport} (h : Genuine r.descriptors)
    (hv : ∀ name ≠ "role", v.member? name = (r.toJson.member? name).map sorted) :
    ofJson? v = some r := by
  have hr : r.remote.Standard := (h (["remote"], r.remote) (by simp [descriptors])).standard
  have hown : v.member? "local" = some (Json.optional Descriptor.toJson r.own).sorted :=
    hv _ (by decide)
  have hremote : v.member? "remote" = some r.remote.toJson.sorted := hv _ (by decide)
  have hbytes : v.member? "bytes_sent" = some (.count r.bytesSent) := hv _ (by decide)
  have hread : (Json.optional Descriptor.toJson r.own).sorted.optional? Descriptor.ofJson? =
      some r.own := by
    cases hd : r.own with
    | none => rfl
    | some d =>
      have ho : d.Standard := (h (["local"], d) (by simp [descriptors, hd])).standard
      have hdecode : (Json.optional Descriptor.toJson (some d)).sorted.optional?
          Descriptor.ofJson? = (Descriptor.ofJson? d.toJson.sorted).map some := rfl
      rw [hdecode, Descriptor.ofJson?_sorted ho]
      rfl
  rw [ofJson?, hown, hremote, hbytes, Option.bind_some, Option.bind_some, hread,
    Descriptor.ofJson?_sorted hr]
  rfl

theorem Report.ofJson?_server {r : DrainReport} (h : Genuine (server r).descriptors) :
    ofJson? (server r).toJson.sorted = some (server r) := by
  have hmember := member?_sorted (server r).distinct_toJson
  have hread : DrainReport.ofJson? (server r).toJson.sorted = some r := by
    refine DrainReport.ofJson?_eq h fun name hname => ?_
    rw [hmember]
    exact congrArg _ (member?_tagged r.members hname)
  have hrole : (server r).toJson.sorted.member? "role" = some (.text "server") := hmember _
  rw [ofJson?, hrole]
  simp [hread]

theorem Report.ofJson?_client {r : SendReport} (h : Genuine (client r).descriptors) :
    ofJson? (client r).toJson.sorted = some (client r) := by
  have hmember := member?_sorted (client r).distinct_toJson
  have hread : SendReport.ofJson? (client r).toJson.sorted = some r := by
    refine SendReport.ofJson?_eq h fun name hname => ?_
    rw [hmember]
    exact congrArg _ (member?_tagged r.members hname)
  have hrole : (client r).toJson.sorted.member? "role" = some (.text "client") := hmember _
  rw [ofJson?, hrole]
  simp [hread]

theorem Report.ofJson?_pair {s : DrainReport} {c : SendReport}
    (h : Genuine (pair s c).descriptors) :
    ofJson? (pair s c).toJson.sorted = some (pair s c) := by
  have hmember := member?_sorted (pair s c).distinct_toJson
  have hs : DrainReport.ofJson? s.toJson.sorted = some s := by
    refine DrainReport.ofJson?_eq (fun x hx => ?_) fun name _ => member?_sorted s.distinct_toJson _
    exact h ("server" :: x.1, x.2) (List.mem_append_left _ (List.mem_map_of_mem hx))
  have hc : SendReport.ofJson? c.toJson.sorted = some c := by
    refine SendReport.ofJson?_eq (fun x hx => ?_) fun name _ => member?_sorted c.distinct_toJson _
    exact h ("client" :: x.1, x.2) (List.mem_append_right _ (List.mem_map_of_mem hx))
  have hrole : (pair s c).toJson.sorted.member? "role" = some (.text "pair") := hmember _
  have hserver : (pair s c).toJson.sorted.member? "server" = some s.toJson.sorted := hmember _
  have hclient : (pair s c).toJson.sorted.member? "client" = some c.toJson.sorted := hmember _
  rw [ofJson?, hrole]
  simp [hserver, hclient, hs, hc]

/-- A report comes back from its value. -/
theorem Report.ofJson?_sorted {r : Report} (h : Genuine r.descriptors) :
    ofJson? r.toJson.sorted = some r := by
  cases r with
  | server r => exact ofJson?_server h
  | client r => exact ofJson?_client h
  | pair s c => exact ofJson?_pair h

theorem Report.ofOutcome?_sorted {r : Report} (h : Genuine r.descriptors) :
    ofOutcome? (outcomeJson (.ok r)).sorted = some r := by
  have hreport : (outcomeJson (.ok r)).sorted.member? "report" = some r.toJson.sorted :=
    member?_sorted (distinct_outcomeJson (.ok r)) "report"
  rw [ofOutcome?, hreport]
  exact ofJson?_sorted h

/-! ### Places -/

theorem DrainReport.at?_of_mem {r : DrainReport} {path : List String} {d : Descriptor}
    (h : (path, d) ∈ r.descriptors)
    (hv : ∀ name ≠ "role", v.member? name = r.toJson.member? name) :
    v.at? path = some d.toJson := by
  have hown : v.member? "local" = some r.own.toJson := hv _ (by decide)
  have hpeer : v.member? "peer" = some r.peer.toJson := hv _ (by decide)
  simp only [descriptors, List.mem_cons, List.not_mem_nil, or_false, Prod.mk.injEq] at h
  rcases h with ⟨rfl, rfl⟩ | ⟨rfl, rfl⟩
  · rw [at?_cons hown, at?]
  · rw [at?_cons hpeer, at?]

theorem SendReport.at?_of_mem {r : SendReport} {path : List String} {d : Descriptor}
    (h : (path, d) ∈ r.descriptors)
    (hv : ∀ name ≠ "role", v.member? name = r.toJson.member? name) :
    v.at? path = some d.toJson := by
  have hown : v.member? "local" = some (Json.optional Descriptor.toJson r.own) := hv _ (by decide)
  have hremote : v.member? "remote" = some r.remote.toJson := hv _ (by decide)
  simp only [descriptors, List.mem_append, Option.mem_toList, Option.map_eq_some_iff,
    List.mem_singleton, Prod.mk.injEq] at h
  rcases h with ⟨d', hd, rfl, rfl⟩ | ⟨rfl, rfl⟩
  · rw [at?_cons hown, at?, hd]
    rfl
  · rw [at?_cons hremote, at?]

theorem Report.at?_of_mem {r : Report} {path : List String} {d : Descriptor}
    (h : (path, d) ∈ r.descriptors) : r.toJson.at? path = some d.toJson := by
  cases r with
  | server r => exact r.at?_of_mem h fun _ hname => member?_tagged r.members hname
  | client r => exact r.at?_of_mem h fun _ hname => member?_tagged r.members hname
  | pair s c =>
    rcases List.mem_append.mp h with h | h
    · obtain ⟨x, hx, he⟩ := List.mem_map.mp h
      obtain ⟨rfl, rfl⟩ := Prod.mk.inj he
      have hserver : (pair s c).toJson.member? "server" = some s.toJson := rfl
      rw [at?_cons hserver]
      exact s.at?_of_mem hx fun _ _ => rfl
    · obtain ⟨x, hx, he⟩ := List.mem_map.mp h
      obtain ⟨rfl, rfl⟩ := Prod.mk.inj he
      have hclient : (pair s c).toJson.member? "client" = some c.toJson := rfl
      rw [at?_cons hclient]
      exact c.at?_of_mem hx fun _ _ => rfl

theorem at?_outcomeJson {r : Report} {path : List String} {d : Descriptor}
    (h : (path, d) ∈ r.descriptors) :
    (outcomeJson (.ok r)).sorted.at? ("report" :: path) = some d.toJson.sorted := by
  have hreport : (outcomeJson (.ok r)).member? "report" = some r.toJson := rfl
  rw [at?_sorted (distinct_outcomeJson _), at?_cons hreport, Report.at?_of_mem h]
  rfl

/-! ### Outcomes -/

theorem member?_ok (o : Outcome) :
    (outcomeJson o).sorted.member? "ok" = some (.bool o.isOk) := by
  rw [member?_sorted (distinct_outcomeJson o)]
  cases o <;> rfl

theorem member?_code (o : Outcome) :
    (outcomeJson o).sorted.member? "code" = some (.number (outcomeCode o)) := by
  rw [member?_sorted (distinct_outcomeJson o)]
  cases o <;> rfl

/-- Reports of genuine descriptors come back from the values of their outcomes, so reports with
equal values are equal, and each descriptor comes back from an object of its own through the reader
of descriptors. No object in a value has two members of one name, and no value is that of a success
and of a failure. The value of an outcome tells with `ok`, and with a `code` of zero, whether the
exit status is zero; the status is the code modulo 256. -/
theorem reports_of_values :
    (∀ r : Report, Genuine r.descriptors →
      Report.ofOutcome? (outcomeJson (.ok r)).sorted = some r) ∧
    (∀ r r' : Report, Genuine r.descriptors → Genuine r'.descriptors →
      (outcomeJson (.ok r)).sorted = (outcomeJson (.ok r')).sorted → r = r') ∧
    (∀ r : Report, Genuine r.descriptors → ∀ x ∈ r.descriptors,
      ∃ v, (outcomeJson (.ok r)).sorted.at? ("report" :: x.1) = some v ∧
        Descriptor.parse v.compact.toList = .ok x.2) ∧
    (∀ o, (outcomeJson o).Distinct) ∧
    (∀ r f, (outcomeJson (.ok r)).sorted ≠ (outcomeJson (.error f)).sorted) ∧
    ∀ o, ∃ ok code, (outcomeJson o).sorted.member? "ok" = some (.bool ok) ∧
      (outcomeJson o).sorted.member? "code" = some (.number code) ∧
      (ok = true ↔ code = 0) ∧ (ok = true ↔ exitStatus o = 0) ∧
      ((exitStatus o).toNat : Int) = code % 256 := by
  refine ⟨fun r h => Report.ofOutcome?_sorted h, ?_, ?_, distinct_outcomeJson, ?_, ?_⟩
  · intro r r' h h' he
    have hread : some r = some r' :=
      calc some r
          = Report.ofOutcome? (outcomeJson (.ok r)).sorted := (Report.ofOutcome?_sorted h).symm
        _ = Report.ofOutcome? (outcomeJson (.ok r')).sorted := by rw [he]
        _ = some r' := Report.ofOutcome?_sorted h'
    exact Option.some.inj hread
  · rintro r h ⟨path, d⟩ hx
    exact ⟨_, at?_outcomeJson hx, Descriptor.parse_sorted (h _ hx).standard⟩
  · intro r f he
    have hr := member?_ok (.ok r)
    rw [he, member?_ok (.error f)] at hr
    simp [Except.isOk, Except.toBool] at hr
  · intro o
    refine ⟨o.isOk, outcomeCode o, member?_ok o, member?_code o, ?_⟩
    cases o <;> simp [Except.isOk, Except.toBool, outcomeCode, Failure.exitCode, exitStatus,
      failureStatus]

/-- The report of a pair comes back from its value, and a client that does not know its own address
has another value than one that does. -/
theorem reports_of_pair_value :
    let s : DrainReport := ⟨Descriptor.local 3 1234, Descriptor.peer 3 40000, 5, 1⟩
    let c : SendReport := ⟨some (Descriptor.local 3 40000), Descriptor.remote 3 1234, 5⟩
    Report.ofOutcome? (outcomeJson (.ok (.pair s c))).sorted = some (.pair s c) ∧
    (outcomeJson (.ok (.client c))).sorted ≠
      (outcomeJson (.ok (.client { c with own := none }))).sorted := by
  intro s c
  obtain ⟨hread, hinj, -⟩ := reports_of_values
  have hc : Genuine (Report.client c).descriptors := by
    simpa [Genuine, Report.descriptors, SendReport.descriptors, c] using
      ⟨Descriptor.Obtainable.local 3 40000, Descriptor.Obtainable.remote 3 1234⟩
  have hnone : Genuine (Report.client { c with own := none }).descriptors := by
    simpa [Genuine, Report.descriptors, SendReport.descriptors, c] using
      Descriptor.Obtainable.remote 3 1234
  have hpair : Genuine (Report.pair s c).descriptors := by
    simpa [Genuine, Report.descriptors, DrainReport.descriptors, SendReport.descriptors, s, c,
      or_imp, forall_and] using
      ⟨Descriptor.Obtainable.local 3 1234, Descriptor.Obtainable.peer 3 40000,
        Descriptor.Obtainable.local 3 40000, Descriptor.Obtainable.remote 3 1234⟩
  refine ⟨hread _ hpair, fun he => ?_⟩
  have hsame := hinj _ _ hc hnone he
  simp [c] at hsame

end Handoff
