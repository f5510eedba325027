import Rustmote.Discovery.Arp
import Rustmote.Discovery.Merge
import Rustmote.Foundations.Contracts

/-!
# The sweeps

`Discovery::scan` and the three sweeps that it joins. The mDNS sweep is a program that reads the
clock: `MdnsRequest` is what it asks, times are in nanoseconds, and the bound of its loop is a
number of rounds. The ICMP sweep pings each host of the network, and the ARP sweep reads the table.
What a sweep yields behind its budget is dropped.

* `mdnsSweep_outlasts` — the mDNS sweep returns what it was told, and never before its budget is over;
  `runWithBudget_mdnsSweep`, `scan_unnamed` — so it is cut off, and a scan knows no hostnames.
* `Ipnet` — what is used of the crate for networks, and `Ipnet.Documented`.
* `scan_accounted` — the hosts of a scan, and each of their data, have a source: an mDNS event, a
  ping, or a row of the table.
-/

namespace Rustmote

open Interaction (Prog Contract)
open Interaction.Prog (Run Meets Returns)

namespace Discovery

/-! ### The mDNS sweep -/

/-- `ServiceEvent`. -/
inductive ServiceEvent where
  /-- `ServiceResolved`, with the addresses in the order in which they are gone through. -/
  | serviceResolved (hostname : Str) (addresses : List IpAddr)
  | other

/-- What the sweep asks. -/
inductive MdnsRequest where
  /-- `ServiceDaemon::new`. -/
  | newDaemon
  /-- `ServiceDaemon::browse`. -/
  | browse (service : Str)
  /-- `Instant::now`. -/
  | now
  /-- `recv_async`, of the receiver of a service, under a timeout. -/
  | recv (service : Str) (limit : Nat)
  /-- `tokio::time::sleep`. -/
  | sleep (duration : Nat)
  /-- `ServiceDaemon::shutdown`. -/
  | shutdown

/-- The type of the reply to a request. -/
def MdnsRequest.Reply : MdnsRequest → Type
  | newDaemon => Except Str Unit
  | browse _ => Except Str Unit
  | now => Nat
  | recv _ _ => Option ServiceEvent
  | sleep _ => Unit
  | shutdown => Except Str Unit

/-- A request, and what came back. -/
abbrev MdnsEvent := Interaction.Event MdnsRequest.Reply

/-- What the sweep is made of. -/
abbrev Mdns : Type → Type := Prog MdnsRequest.Reply Empty

/-- `Instant::now`. -/
def instantNow : Mdns Nat := Prog.request MdnsRequest.now

/-- `MDNS_SERVICE_TYPES`. -/
def serviceTypes : List Str := ["_ssh._tcp.local.".toList, "_workstation._tcp.local.".toList]

/-- The findings of an event. -/
def findingsOf : ServiceEvent → List MdnsFinding
  | .serviceResolved hostname addresses =>
    let name := if hostname = [] then none else some (Text.trimEndMatches '.' hostname)
    addresses.map fun ip => ⟨ip, name⟩
  | .other => []

/-- The loop that browses: the services that have a receiver. -/
def browseAll : List Str → Mdns (List Str)
  | [] => return []
  | service :: services => do
    let browsed ← Prog.request (MdnsRequest.browse service)
    let receivers ← browseAll services
    match browsed with
    | .ok _ => return service :: receivers
    | .error _ => return receivers

/-- A round over the receivers: whether something came, and the findings. -/
def recvRound (remaining : Nat) : List Str → Mdns (Bool × List MdnsFinding)
  | [] => return (false, [])
  | receiver :: receivers => do
    let event ← Prog.request (MdnsRequest.recv receiver (min remaining 200000000))
    let (progressed, findings) ← recvRound remaining receivers
    match event with
    | some event => return (true, findingsOf event ++ findings)
    | none => return (progressed, findings)

/-- The rounds up to the deadline. -/
def rounds (deadline : Nat) (receivers : List Str) : Nat → List MdnsFinding → Mdns (List MdnsFinding)
  | 0, _ => .cut
  | bound + 1, findings => do
    let now ← instantNow
    if now ≤ deadline then
      let (progressed, more) ← recvRound (deadline - now) receivers
      if progressed then rounds deadline receivers bound (findings ++ more)
      else
        let _ ← Prog.request (MdnsRequest.sleep 100000000)
        rounds deadline receivers bound (findings ++ more)
    else return findings

/-- `mdns_sweep`. -/
def mdnsSweep (bound budget : Nat) : Mdns (List MdnsFinding) := do
  match ← Prog.request MdnsRequest.newDaemon with
  | .error _ => return []
  | .ok _ =>
    let receivers ← browseAll serviceTypes
    let now ← instantNow
    let findings ← rounds (now + budget) receivers bound []
    let _ ← Prog.request MdnsRequest.shutdown
    return findings

/-- The findings that an event brings. -/
def reported : MdnsEvent → List MdnsFinding
  | ⟨.recv _ _, some event⟩ => findingsOf event
  | _ => []

/-- What an event reads from the clock. -/
def reading : MdnsEvent → Option Nat
  | ⟨.now, t⟩ => some t
  | _ => none

/-- The clock readings. -/
def readings (tr : List MdnsEvent) : List Nat := tr.filterMap reading

theorem readings_append (t₁ t₂ : List MdnsEvent) :
    readings (t₁ ++ t₂) = readings t₁ ++ readings t₂ := List.filterMap_append

/-- The events of a sweep whose daemon was started: `browsing`, and those of the rounds. -/
def eventsOf (browsing : List MdnsEvent) (start : Nat)
    (inRounds : List MdnsEvent) (stopped : Except Str Unit) :
    List MdnsEvent :=
  [⟨.newDaemon, .ok ()⟩] ++ browsing ++ [⟨.now, start⟩] ++ inRounds ++ [⟨.shutdown, stopped⟩]

theorem reported_eventsOf (browsing inRounds : List MdnsEvent) (start : Nat)
    (stopped : Except Str Unit) : (eventsOf browsing start inRounds stopped).flatMap reported =
      browsing.flatMap reported ++ inRounds.flatMap reported := by
  simp [eventsOf, reported]

theorem readings_eventsOf (browsing inRounds : List MdnsEvent) (start : Nat)
    (stopped : Except Str Unit) : readings (eventsOf browsing start inRounds stopped) =
      readings browsing ++ start :: readings inRounds := by
  rw [eventsOf, readings_append, readings_append, readings_append, readings_append]
  show [] ++ readings browsing ++ [start] ++ readings inRounds ++ [] = _
  simp

/-- All that was asked, and nothing is forbidden. -/
def mdnsHistory : Contract MdnsRequest.Reply (List MdnsEvent) :=
  .history fun _ _ => True

theorem returned_of_run {α : Type} {p : Mdns α} {P : List MdnsEvent → α → Prop}
    {tr : List MdnsEvent} {a : α} (h : Meets mdnsHistory (Returns P) [] p)
    (hrun : Run p tr (some (.ok a))) : P tr a := by
  obtain ⟨-, hends⟩ := h.run hrun
  obtain ⟨_, ha, hP⟩ := hends _ rfl
  obtain rfl := Except.ok.inj ha
  rwa [mdnsHistory, Contract.after_history] at hP

theorem meets_browseAll (services : List Str) (tr : List MdnsEvent) :
    Meets mdnsHistory (Returns fun tr' _ => ∃ t, tr' = tr ++ t ∧ t.flatMap reported = [] ∧
      readings t = []) tr (browseAll services) := by
  induction services generalizing tr with
  | nil => exact ⟨_, rfl, [], (List.append_nil tr).symm, rfl, rfl⟩
  | cons service services ih =>
    refine Meets.request trivial fun browsed => (ih _).then ?_
    rintro _ receivers ⟨t, rfl, hreported, hreadings⟩
    have hstep : ∃ t', (tr ++ [⟨.browse service, browsed⟩]) ++ t = tr ++ t' ∧
        t'.flatMap reported = [] ∧ readings t' = [] :=
      ⟨⟨.browse service, browsed⟩ :: t, List.append_assoc _ _ _, hreported, hreadings⟩
    cases browsed with
    | ok _ => exact ⟨_, rfl, hstep⟩
    | error _ => exact ⟨_, rfl, hstep⟩

theorem meets_recvRound (remaining : Nat) (receivers : List Str)
    (tr : List MdnsEvent) :
    Meets mdnsHistory (Returns fun tr' round => ∃ t, tr' = tr ++ t ∧
      t.flatMap reported = round.2 ∧ readings t = []) tr (recvRound remaining receivers) := by
  induction receivers generalizing tr with
  | nil => exact ⟨_, rfl, [], (List.append_nil tr).symm, rfl, rfl⟩
  | cons receiver receivers ih =>
    refine Meets.request trivial fun event => (ih _).then ?_
    rintro _ ⟨progressed, findings⟩ ⟨t, rfl, hreported, hreadings⟩
    have happend : (tr ++ [⟨.recv receiver (min remaining 200000000), event⟩]) ++ t =
        tr ++ ⟨.recv receiver (min remaining 200000000), event⟩ :: t := List.append_assoc _ _ _
    cases event with
    | some event => exact ⟨_, rfl, _, happend, congrArg (findingsOf event ++ ·) hreported, hreadings⟩
    | none => exact ⟨_, rfl, _, happend, hreported, hreadings⟩

/-- The readings behind the first: none but the last is behind the deadline. -/
def RunsOut (deadline : Nat) (times : List Nat) : Prop :=
  ∃ within last, times = within ++ [last] ∧ (∀ t ∈ within, t ≤ deadline) ∧ deadline < last

theorem RunsOut.cons {deadline t : Nat} {times : List Nat} (h : RunsOut deadline times)
    (ht : t ≤ deadline) : RunsOut deadline (t :: times) := by
  obtain ⟨within, last, rfl, hwithin, hlast⟩ := h
  exact ⟨t :: within, last, rfl, List.forall_mem_cons.mpr ⟨ht, hwithin⟩, hlast⟩

theorem meets_rounds (deadline : Nat) (receivers : List Str) (bound : Nat)
    (findings : List MdnsFinding) (tr : List MdnsEvent) :
    Meets mdnsHistory (Returns fun tr' found => ∃ t, tr' = tr ++ t ∧
      found = findings ++ t.flatMap reported ∧ RunsOut deadline (readings t)) tr
      (rounds deadline receivers bound findings) := by
  induction bound generalizing findings tr with
  | zero => exact trivial
  | succ bound ih =>
    refine Meets.request trivial fun now => ?_
    split
    · next hnow =>
      refine (meets_recvRound _ _ _).then ?_
      rintro _ ⟨progressed, more⟩ ⟨t, rfl, hmore, hreadings⟩
      have hround : ∀ rest : List MdnsEvent, RunsOut deadline (readings rest) →
          ∃ t', (tr ++ [⟨.now, now⟩]) ++ t ++ rest = tr ++ t' ∧
            findings ++ more ++ rest.flatMap reported = findings ++ t'.flatMap reported ∧
            RunsOut deadline (readings t') := by
        intro rest hrest
        refine ⟨⟨.now, now⟩ :: (t ++ rest), by simp, ?_, ?_⟩
        · rw [List.flatMap_cons, List.flatMap_append, hmore, List.append_assoc]
          rfl
        · have hreadings' : readings (⟨.now, now⟩ :: (t ++ rest)) = now :: readings rest :=
            congrArg (now :: ·) ((readings_append t rest).trans (by rw [hreadings]; rfl))
          rw [hreadings']
          exact hrest.cons hnow
      cases progressed with
      | true =>
        refine (ih _ _).mono ?_
        rintro _ x ⟨found, rfl, rest, rfl, rfl, hrest⟩
        exact ⟨_, rfl, hround rest hrest⟩
      | false =>
        refine Meets.request trivial fun _ => (ih _ _).mono ?_
        rintro _ x ⟨found, rfl, rest, rfl, rfl, hrest⟩
        obtain ⟨t', heq, hfound, hout⟩ := hround (⟨.sleep 100000000, ()⟩ :: rest) hrest
        refine ⟨_, rfl, t', ?_, hfound, hout⟩
        rw [← heq]
        exact List.append_assoc _ _ _
    · next hnow =>
      refine ⟨_, rfl, [⟨.now, now⟩], rfl, (List.append_nil findings).symm, ?_⟩
      exact ⟨[], now, rfl, fun t ht => absurd ht List.not_mem_nil, Nat.lt_of_not_le hnow⟩

theorem meets_mdnsSweep (bound budget : Nat) :
    Meets mdnsHistory (Returns fun tr found => found = tr.flatMap reported ∧
      ((∃ e, tr = [⟨.newDaemon, .error e⟩]) ∨
        ∃ start within last, readings tr = start :: (within ++ [last]) ∧
          (∀ t ∈ within, t ≤ start + budget) ∧ start + budget < last)) []
      (mdnsSweep bound budget) := by
  refine Meets.request trivial fun daemon => ?_
  cases daemon with
  | error e => exact ⟨_, rfl, rfl, .inl ⟨e, rfl⟩⟩
  | ok _ =>
    refine (meets_browseAll _ _).then ?_
    rintro _ receivers ⟨t₁, rfl, hreported₁, hreadings₁⟩
    refine Meets.request trivial fun start => (meets_rounds _ _ _ _ _).then ?_
    rintro _ found ⟨t₂, rfl, hfound, hout⟩
    refine Meets.request trivial fun stopped => ⟨_, rfl, ?_, .inr ?_⟩
    · refine Eq.trans ?_ (reported_eventsOf t₁ t₂ start stopped).symm
      rw [hfound, hreported₁]
    · obtain ⟨within, last, htimes, hwithin, hlast⟩ := hout
      refine ⟨start, within, last, ?_, hwithin, hlast⟩
      refine (readings_eventsOf t₁ t₂ start stopped).trans ?_
      rw [hreadings₁, htimes]
      rfl

/-- **The mDNS sweep outlasts its budget**: what it returns are the findings of the events that it
has received, in order; and unless the daemon could not be started it has read the clock, and
returns when a reading is more than the budget behind the first. -/
theorem mdnsSweep_outlasts {bound budget : Nat} {tr : List MdnsEvent}
    {findings : List MdnsFinding} (h : Run (mdnsSweep bound budget) tr (some (.ok findings))) :
    findings = tr.flatMap reported ∧
      ((∃ e, tr = [⟨.newDaemon, .error e⟩]) ∨
        ∃ start within last, readings tr = start :: (within ++ [last]) ∧
          (∀ t ∈ within, t ≤ start + budget) ∧ start + budget < last) :=
  returned_of_run (meets_mdnsSweep bound budget) h

/-- `run_with_budget`. -/
def runWithBudget {α : Type} (inTime : Bool) (x : α) : Option α := if inTime then some x else none

/-- The clock, as it is read, keeps within the budget of a timeout that was set at `set`. -/
def WithinBudget (set budget : Nat) (tr : List MdnsEvent) : Prop :=
  ∀ t ∈ readings tr, set ≤ t ∧ t ≤ set + budget

/-- A sweep that ends within its budget has nothing to return. -/
theorem findings_of_withinBudget {set bound budget : Nat} {tr : List MdnsEvent}
    {findings : List MdnsFinding} (h : Run (mdnsSweep bound budget) tr (some (.ok findings)))
    (hwithin : WithinBudget set budget tr) : findings = [] := by
  obtain ⟨hfound, ⟨e, rfl⟩ | ⟨start, within, last, htimes, -, hlast⟩⟩ :=
    returned_of_run (meets_mdnsSweep bound budget) h
  · exact hfound
  · have hstart := (hwithin start (by simp [htimes])).1
    have hend := (hwithin last (by simp [htimes])).2
    omega

/-- **What the mDNS sweep finds is dropped**: where the timeout of `run_with_budget` lets a result
through only within its budget, nothing that was found is let through. -/
theorem runWithBudget_mdnsSweep {set bound budget : Nat} {tr : List MdnsEvent} {inTime : Bool}
    {findings : List MdnsFinding} (h : Run (mdnsSweep bound budget) tr (some (.ok findings)))
    (htimeout : inTime = true → WithinBudget set budget tr) :
    (runWithBudget inTime findings).getD [] = [] := by
  cases inTime with
  | true => exact findings_of_withinBudget h (htimeout rfl)
  | false => rfl

/-- A network on which one host advertises itself for SSH; the clock goes on as it is read. -/
def oneHost : Interaction.Env MdnsRequest.Reply Nat where
  answer := fun t q =>
    match q with
    | .newDaemon => (.ok (), t)
    | .browse _ => (.ok (), t)
    | .now => (t, t + 1000)
    | .recv service _ =>
      (if service = "_ssh._tcp.local.".toList then
        some (.serviceResolved "nas.local.".toList [.v4 0x0A000007]) else none, t)
    | .sleep _ => ((), t)
    | .shutdown => (.ok (), t)

/-- The findings of a sweep there. -/
def oneFinding : List MdnsFinding := [⟨.v4 0x0A000007, some "nas.local".toList⟩]

/-- Its events. -/
def oneTrace : List MdnsEvent := oneHost.trace 0 (mdnsSweep 5 1000)

theorem run_oneTrace : Run (mdnsSweep 5 1000) oneTrace (some (.ok oneFinding)) := by
  have hvalue : oneHost.value 0 (mdnsSweep 5 1000) = some oneFinding := rfl
  exact (Interaction.Env.runs_value hvalue).1

/-- The sweep returns at a reading of two seconds for one. -/
theorem mdnsSweep_outlasts_oneHost : oneFinding = oneTrace.flatMap reported ∧
    ((∃ e, oneTrace = [⟨.newDaemon, .error e⟩]) ∨
      ∃ start within last, readings oneTrace = start :: (within ++ [last]) ∧
        (∀ t ∈ within, t ≤ start + 1000) ∧ start + 1000 < last) :=
  mdnsSweep_outlasts run_oneTrace

end Discovery

/-! ### Networks -/

/-- What is used of the crate `ipnet`. -/
structure Ipnet where
  /-- `Ipv4Net`. -/
  Net : Type
  /-- `Ipv4Net::addr`. -/
  addr : Net → BitVec 32
  /-- `Ipv4Net::prefix_len`. -/
  prefixLen : Net → Nat
  /-- `Ipv4Net::new`. -/
  new : BitVec 32 → Nat → Option Net
  /-- `Ipv4Net::trunc`. -/
  trunc : Net → Net
  /-- `Ipv4Net::hosts`. -/
  hosts : Net → List (BitVec 32)

namespace Ipnet

variable (ipnet : Ipnet) (net : ipnet.Net)

/-- The number of addresses of a network. -/
def size : Nat := 2 ^ (32 - ipnet.prefixLen net)

/-- Its first address. -/
def network : Nat := (ipnet.addr net).toNat / ipnet.size net * ipnet.size net

/-- Its last address. -/
def broadcast : Nat := ipnet.network net + (ipnet.size net - 1)

/-- The address has the prefix of the network, and is neither its first nor its last. -/
def Inside (ip : BitVec 32) : Prop :=
  ip.toNat / ipnet.size net = (ipnet.addr net).toNat / ipnet.size net ∧
    ip.toNat ≠ ipnet.network net ∧ ip.toNat ≠ ipnet.broadcast net

/-- A host of a network: an address inside; of a network of one or two addresses, whichever the
crate goes through. -/
def IsHost (ip : BitVec 32) : Prop :=
  if ipnet.prefixLen net < 31 then ipnet.Inside net ip else ip ∈ ipnet.hosts net

/-- What the crate documents of `Ipv4Net::hosts`. -/
structure Documented : Prop where
  /-- If the prefix is shorter than 31, the network address and the broadcast address are left
  out. -/
  mem_hosts : ∀ net ip, ipnet.prefixLen net < 31 → (ip ∈ ipnet.hosts net ↔ ipnet.Inside net ip)

variable {ipnet} {net}

theorem Documented.mem_hosts_iff (h : ipnet.Documented) {ip : BitVec 32} :
    ip ∈ ipnet.hosts net ↔ ipnet.IsHost net ip := by
  unfold IsHost
  split
  · next hprefix => exact h.mem_hosts net ip hprefix
  · rfl

end Ipnet

/-! ### A scan -/

/-- `Discovery`: the network it is told, its timeout, and the addresses it knows. -/
structure Discovery (ipnet : Ipnet) where
  cidr : Option ipnet.Net
  timeout : Nat
  knownServers : List IpAddr

namespace Discovery

/-- An interface of the machine, with its IPv4 address and the length of the prefix. -/
structure Iface where
  isLoopback : Bool
  v4 : Option (BitVec 32 × Nat)

/-- `auto_detect_cidr`: `none` is `DiscoveryNoInterface`. -/
def autoDetectCidr (ipnet : Ipnet) (ifaces : Except Str (List Iface)) : Option ipnet.Net :=
  match ifaces with
  | .error _ => none
  | .ok ifaces => (ifaces.filter fun iface => !iface.isLoopback).findSome? fun iface =>
    iface.v4.bind fun (ip, prefixLen) => (ipnet.new ip prefixLen).map ipnet.trunc

variable {ipnet : Ipnet}

/-- What a scan meets. -/
structure Lan where
  interfaces : Except Str (List Iface)
  /-- What the mDNS sweep has returned in its time. -/
  mdns : Option (List MdnsFinding)
  /-- `surge_ping::Client::new`. -/
  client : Except Str Unit
  /-- The hosts that answer. -/
  ping : BitVec 32 → Bool
  /-- The ICMP sweep ends in its time. -/
  icmpInTime : Bool
  /-- The text of the ARP table. -/
  arp : Except Str Str
  /-- The ARP table is read in time. -/
  arpInTime : Bool

/-- `icmp_sweep`. -/
def icmpSweep (ipnet : Ipnet) (lan : Lan) (cidr : ipnet.Net) : List IpAddr :=
  match lan.client with
  | .error _ => []
  | .ok _ => (ipnet.hosts cidr).filterMap fun ip => if lan.ping ip then some (.v4 ip) else none

/-- The network that is scanned. -/
def network (d : Discovery ipnet) (lan : Lan) : Option ipnet.Net :=
  match d.cidr with
  | some cidr => some cidr
  | none => autoDetectCidr ipnet lan.interfaces

/-- `Discovery::scan`: `none` is `DiscoveryNoInterface`. -/
def scan (d : Discovery ipnet) (lan : Lan) : Option (List DiscoveredHost) := do
  let cidr ← d.network lan
  return mergeResults (lan.mdns.getD [])
    ((runWithBudget lan.icmpInTime (icmpSweep ipnet lan cidr)).getD [])
    ((runWithBudget lan.arpInTime (arpReadFrom lan.arp)).getD []) d.knownServers

/-- An mDNS event gives this address, with this name. -/
def Advertised (tr : List MdnsEvent) (ip : IpAddr) (name : Option Str) : Prop :=
  ∃ service limit hostname addresses,
    ⟨.recv service limit, some (.serviceResolved hostname addresses)⟩ ∈ tr ∧ ip ∈ addresses ∧
      name = if hostname = [] then none else some (Text.trimEndMatches '.' hostname)

/-- A host of the network has answered a ping. -/
def Answered (lan : Lan) (cidr : ipnet.Net) (ip : IpAddr) : Prop :=
  ∃ bits, ipnet.IsHost cidr bits ∧ ip = .v4 bits ∧ lan.ping bits = true

/-- A line of the ARP table gives the address this mac. -/
def Resolves (lan : Lan) (ip : IpAddr) (mac : Str) : Prop :=
  ∃ body, lan.arp = .ok body ∧ ∃ line ∈ (Text.lines body).drop 1, Gives line ip mac

theorem mem_arpReadFrom_iff {lan : Lan} {ip : IpAddr} {mac : Str} :
    (ip, mac) ∈ arpReadFrom lan.arp ↔ Resolves lan ip mac := by
  unfold arpReadFrom Resolves
  cases lan.arp with
  | error e => simp
  | ok body => simp [mem_parseProcNetArp_iff]

theorem mem_icmpSweep_iff (hipnet : ipnet.Documented) {lan : Lan} {cidr : ipnet.Net} {ip : IpAddr} :
    ip ∈ icmpSweep ipnet lan cidr ↔ lan.client = .ok () ∧ Answered lan cidr ip := by
  unfold icmpSweep Answered
  cases hclient : lan.client with
  | error e => simp
  | ok _ =>
    simp only [List.mem_filterMap, hipnet.mem_hosts_iff, true_and]
    refine exists_congr fun bits => and_congr_right fun _ => ?_
    split
    · next hping => simp [hping, eq_comm]
    · next hping => simp [hping]

theorem mem_reported_iff {tr : List MdnsEvent} {finding : MdnsFinding} :
    finding ∈ tr.flatMap reported ↔ Advertised tr finding.ip finding.hostname := by
  rw [List.mem_flatMap]
  constructor
  · rintro ⟨⟨request, reply⟩, he, hfinding⟩
    cases request with
    | recv service limit =>
      cases reply with
      | none => cases hfinding
      | some event =>
        cases event with
        | serviceResolved hostname addresses =>
          obtain ⟨ip, hip, rfl⟩ := List.mem_map.mp hfinding
          exact ⟨service, limit, hostname, addresses, he, hip, rfl⟩
        | other => cases hfinding
    | _ => cases hfinding
  · rintro ⟨service, limit, hostname, addresses, he, hip, hname⟩
    refine ⟨_, he, List.mem_map.mpr ⟨finding.ip, hip, ?_⟩⟩
    rw [← hname]

theorem mem_mergeResults_iff {mdns : List MdnsFinding} {icmp : List IpAddr}
    {arp : List (IpAddr × Str)} {known : List IpAddr} {host : DiscoveredHost} :
    host ∈ mergeResults mdns icmp arp known ↔
      Found mdns icmp arp host.ip ∧ host = hostOf mdns arp known host.ip := by
  obtain ⟨byIp, hmerged, heq⟩ := exists_merged mdns icmp arp known
  rw [heq, List.mem_map]
  constructor
  · rintro ⟨⟨ip, host⟩, hmem, rfl⟩
    obtain ⟨hfound, rfl⟩ := hmerged.mem_entries_iff.mp hmem
    exact ⟨hfound, rfl⟩
  · rintro ⟨hfound, hhost⟩
    exact ⟨(host.ip, host), hmerged.mem_entries_iff.mpr ⟨hfound, hhost⟩, rfl⟩

theorem mergeResults_sorted (mdns : List MdnsFinding) (icmp : List IpAddr)
    (arp : List (IpAddr × Str)) (known : List IpAddr) :
    (mergeResults mdns icmp arp known).Pairwise (fun a b => a.ip < b.ip) := by
  obtain ⟨byIp, hmerged, heq⟩ := exists_merged mdns icmp arp known
  rw [heq, List.pairwise_map]
  refine byIp.sorted.imp_of_mem fun {a b} ha hb hlt => ?_
  rw [(hmerged.mem_entries_iff.mp ha).2, (hmerged.mem_entries_iff.mp hb).2]
  exact hlt

theorem mem_runWithBudget {α : Type} {inTime : Bool} {l : List α} {a : α} :
    a ∈ (runWithBudget inTime l).getD [] ↔ inTime = true ∧ a ∈ l := by
  cases inTime <;> simp [runWithBudget]

/-- **Every host of a scan is accounted for**: an address is there, once, just when one of the sweeps
that ended in time has found it, and a hostname or a mac was found with its address. -/
theorem scan_accounted (hipnet : ipnet.Documented) {d : Discovery ipnet} {lan : Lan}
    {hosts : List DiscoveredHost} {bound : Nat} {tr : List MdnsEvent}
    (hmdns : ∀ findings, lan.mdns = some findings →
      Run (mdnsSweep bound d.timeout) tr (some (.ok findings)))
    (h : d.scan lan = some hosts) :
    ∃ cidr, d.network lan = some cidr ∧ hosts.Pairwise (fun a b => a.ip < b.ip) ∧
      (∀ ip, (∃ host ∈ hosts, host.ip = ip) ↔
        (lan.mdns.isSome = true ∧ ∃ name, Advertised tr ip name) ∨
        (lan.icmpInTime = true ∧ lan.client = .ok () ∧ Answered lan cidr ip) ∨
        lan.arpInTime = true ∧ ∃ mac, Resolves lan ip mac) ∧
      ∀ host ∈ hosts, (host.isKnownServer = true ↔ host.ip ∈ d.knownServers) ∧
        (∀ name, host.hostname = some name → Advertised tr host.ip (some name)) ∧
        ∀ mac, host.mac = some mac → Resolves lan host.ip mac := by
  obtain ⟨cidr, hcidr, hhosts⟩ := Option.bind_eq_some_iff.mp h
  obtain rfl := Option.some.inj hhosts
  have hfindings : ∀ finding, finding ∈ lan.mdns.getD [] ↔
      lan.mdns.isSome = true ∧ Advertised tr finding.ip finding.hostname := by
    intro finding
    cases hresult : lan.mdns with
    | none => simp
    | some findings =>
      rw [Option.getD_some, (returned_of_run (meets_mdnsSweep _ _) (hmdns findings hresult)).1,
        mem_reported_iff]
      simp
  refine ⟨cidr, hcidr, mergeResults_sorted _ _ _ _, fun ip => ?_, fun host hmem => ?_⟩
  · constructor
    · rintro ⟨host, hmem, rfl⟩
      rcases (mem_mergeResults_iff.mp hmem).1 with ⟨finding, hfinding, hip⟩ | hicmp | ⟨row, hrow, hip⟩
      · obtain ⟨hkept, hadvertised⟩ := (hfindings finding).mp hfinding
        exact .inl ⟨hkept, finding.hostname, hip ▸ hadvertised⟩
      · obtain ⟨hkept, hanswered⟩ := mem_runWithBudget.mp hicmp
        exact .inr (.inl ⟨hkept, (mem_icmpSweep_iff hipnet).mp hanswered⟩)
      · obtain ⟨hkept, hread⟩ := mem_runWithBudget.mp hrow
        exact .inr (.inr ⟨hkept, row.2, hip ▸ mem_arpReadFrom_iff.mp hread⟩)
    · intro hip
      refine ⟨hostOf _ _ _ ip, mem_mergeResults_iff.mpr ⟨?_, rfl⟩, rfl⟩
      rcases hip with ⟨hkept, name, hadvertised⟩ | ⟨hkept, hanswered⟩ | ⟨hkept, mac, hresolves⟩
      · exact .inl ⟨⟨ip, name⟩, (hfindings _).mpr ⟨hkept, hadvertised⟩, rfl⟩
      · exact .inr (.inl (mem_runWithBudget.mpr ⟨hkept, (mem_icmpSweep_iff hipnet).mpr hanswered⟩))
      · refine .inr (.inr ⟨(ip, mac), mem_runWithBudget.mpr ⟨hkept, ?_⟩, rfl⟩)
        exact mem_arpReadFrom_iff.mpr hresolves
  · obtain ⟨-, hhost⟩ := mem_mergeResults_iff.mp hmem
    refine ⟨?_, fun name hname => ?_, fun mac hmac => ?_⟩
    · rw [hhost]
      simp [hostOf]
    · rw [hhost] at hname
      obtain ⟨finding, hfinding, hnamed⟩ := List.exists_of_findSome?_eq_some hname
      obtain ⟨hfinding, hip⟩ := List.mem_filter.mp hfinding
      have hadvertised := ((hfindings finding).mp hfinding).2
      rwa [of_decide_eq_true hip, hnamed] at hadvertised
    · rw [hhost] at hmac
      obtain ⟨row, hrow, rfl⟩ := Option.map_eq_some_iff.mp hmac
      have hip := List.find?_some hrow
      obtain ⟨-, hread⟩ := mem_runWithBudget.mp (List.mem_of_find?_eq_some hrow)
      exact of_decide_eq_true hip ▸ mem_arpReadFrom_iff.mp hread

/-- **A scan knows no hostnames**, where the timeout of `run_with_budget` lets the mDNS sweep through
only within its budget. -/
theorem scan_unnamed {d : Discovery ipnet} {lan : Lan} {hosts : List DiscoveredHost}
    {set bound : Nat} {tr : List MdnsEvent}
    (hmdns : ∀ findings, lan.mdns = some findings →
      Run (mdnsSweep bound d.timeout) tr (some (.ok findings)) ∧ WithinBudget set d.timeout tr)
    (h : d.scan lan = some hosts) : ∀ host ∈ hosts, host.hostname = none := by
  obtain ⟨cidr, -, hhosts⟩ := Option.bind_eq_some_iff.mp h
  obtain rfl := Option.some.inj hhosts
  have hnone : lan.mdns.getD [] = [] := by
    cases hresult : lan.mdns with
    | none => rfl
    | some findings =>
      obtain ⟨hrun, hwithin⟩ := hmdns findings hresult
      exact findings_of_withinBudget hrun hwithin
  rintro host hmem
  rw [(mem_mergeResults_iff.mp hmem).2, hnone]
  rfl

end Discovery

/-! ### The networks of a scan of one host -/

/-- An address, and the length of its prefix. -/
structure Ipv4Net where
  addr : BitVec 32
  prefixLen : Nat
  valid : prefixLen ≤ 32

namespace Ipv4Net

/-- The number of addresses. -/
def size (net : Ipv4Net) : Nat := 2 ^ (32 - net.prefixLen)

/-- The first address. -/
def network (net : Ipv4Net) : Nat := net.addr.toNat / net.size * net.size

/-- The first of the hosts and their number. -/
def hostRange (net : Ipv4Net) : Nat × Nat :=
  if net.prefixLen < 31 then (net.network + 1, net.size - 2) else (net.network, net.size)

/-- Its hosts, in order. -/
def hosts (net : Ipv4Net) : List (BitVec 32) :=
  (List.range' net.hostRange.1 net.hostRange.2).map (BitVec.ofNat 32)

theorem size_pos (net : Ipv4Net) : 0 < net.size := Nat.two_pow_pos _

/-- A network is one of so many of its size. -/
theorem size_mul (net : Ipv4Net) : net.size * 2 ^ net.prefixLen = 4294967296 := by
  rw [size, ← Nat.pow_add, Nat.sub_add_cancel net.valid]

/-- The addresses of a network are below the bound of all. -/
theorem network_add_size_le (net : Ipv4Net) : net.network + net.size ≤ 4294967296 := by
  have hlt : net.addr.toNat < 2 ^ net.prefixLen * net.size := by
    have hmul := net.size_mul
    have hbits := net.addr.isLt
    rw [Nat.mul_comm, hmul]
    omega
  have hdiv : net.addr.toNat / net.size < 2 ^ net.prefixLen :=
    Nat.div_lt_of_lt_mul (by rwa [Nat.mul_comm])
  calc net.network + net.size = (net.addr.toNat / net.size + 1) * net.size := by
        rw [network, Nat.add_mul, Nat.one_mul]
    _ ≤ 2 ^ net.prefixLen * net.size := Nat.mul_le_mul_right _ hdiv
    _ = 4294967296 := by rw [Nat.mul_comm, net.size_mul]

theorem two_le_size {net : Ipv4Net} (h : net.prefixLen < 31) : 2 ≤ net.size := by
  have hone : 1 ≤ 32 - net.prefixLen := by omega
  exact Nat.pow_le_pow_right Nat.two_pos hone

theorem hostRange_le (net : Ipv4Net) : net.network ≤ net.hostRange.1 ∧
    net.hostRange.1 + net.hostRange.2 ≤ net.network + net.size := by
  unfold hostRange
  split
  · next h =>
    have hsize := two_le_size h
    constructor
    · exact Nat.le_succ _
    · dsimp only
      omega
  · exact ⟨Nat.le_refl _, Nat.le_refl _⟩

theorem mem_range_hosts_iff {net : Ipv4Net} (h : net.prefixLen < 31) {n : Nat} :
    n ∈ List.range' net.hostRange.1 net.hostRange.2 ↔ n / net.size = net.addr.toNat / net.size ∧
      n ≠ net.network ∧ n ≠ net.network + (net.size - 1) := by
  have hpos := net.size_pos
  have hsize := two_le_size h
  have hdiv : n / net.size = net.addr.toNat / net.size ↔
      net.network ≤ n ∧ n < net.network + net.size := by
    rw [Nat.div_eq_iff hpos, network]
    omega
  rw [List.mem_range'_1, hdiv, hostRange, if_pos h]
  dsimp only
  omega

/-- What a scan uses of them. -/
def ipnet : Ipnet where
  Net := Ipv4Net
  addr := addr
  prefixLen := prefixLen
  new := fun addr prefixLen => if h : prefixLen ≤ 32 then some ⟨addr, prefixLen, h⟩ else none
  trunc := fun net => { net with addr := BitVec.ofNat 32 net.network }
  hosts := hosts

theorem documented : ipnet.Documented where
  mem_hosts net ip h := by
    have hbound := net.network_add_size_le
    have hlast := net.hostRange_le.2
    show ip ∈ (List.range' net.hostRange.1 net.hostRange.2).map (BitVec.ofNat 32) ↔ _
    rw [List.mem_map]
    constructor
    · rintro ⟨n, hn, rfl⟩
      have htoNat : (BitVec.ofNat 32 n).toNat = n := by
        rw [BitVec.toNat_ofNat]
        exact Nat.mod_eq_of_lt (by have := (List.mem_range'_1.mp hn).2; omega)
      rw [Ipnet.Inside, htoNat]
      exact (mem_range_hosts_iff h).mp hn
    · intro hip
      exact ⟨ip.toNat, (mem_range_hosts_iff h).mpr hip,
        BitVec.ofNat_toNat 32 ip |>.trans (by simp)⟩

end Ipv4Net

namespace Discovery

/-- What a scan meets there. -/
def oneLan : Lan where
  interfaces := .ok []
  mdns := some oneFinding
  client := .ok ()
  ping := fun ip => ip == 0x0A000007
  icmpInTime := true
  arp := .error "no such file".toList
  arpInTime := true

/-- A scan of fourteen addresses, one of which it knows. -/
def oneScan : Discovery Ipv4Net.ipnet := ⟨some ⟨0x0A000000, 28, by decide⟩, 1000, [.v4 0x0A000007]⟩

/-- The scan finds the one host, with its name. -/
theorem scan_accounted_oneHost : ∃ cidr, oneScan.network oneLan = some cidr ∧
    (∃ host ∈ [(⟨.v4 0x0A000007, some "nas.local".toList, none, true⟩ : DiscoveredHost)],
      host.ip = .v4 0x0A000007) ∧
    ((oneLan.mdns.isSome = true ∧ ∃ name, Advertised oneTrace (.v4 0x0A000007) name) ∨
      (oneLan.icmpInTime = true ∧ oneLan.client = .ok () ∧
        Answered oneLan cidr (.v4 0x0A000007)) ∨
      oneLan.arpInTime = true ∧ ∃ mac, Resolves oneLan (.v4 0x0A000007) mac) := by
  have hscan : oneScan.scan oneLan =
      some [⟨.v4 0x0A000007, some "nas.local".toList, none, true⟩] := by decide
  have hmdns : ∀ findings, oneLan.mdns = some findings →
      Run (mdnsSweep 5 oneScan.timeout) oneTrace (some (.ok findings)) := by
    rintro _ ⟨⟩
    exact run_oneTrace
  obtain ⟨cidr, hcidr, -, hfound, -⟩ := scan_accounted Ipv4Net.documented hmdns hscan
  have hmem : ∃ host ∈ [(⟨.v4 0x0A000007, some "nas.local".toList, none, true⟩ : DiscoveredHost)],
      host.ip = .v4 0x0A000007 := ⟨_, List.mem_singleton_self _, rfl⟩
  exact ⟨cidr, hcidr, hmem, (hfound _).mp hmem⟩

end Discovery

end Rustmote
