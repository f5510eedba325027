import Rustmote.Config.Registry
import Rustmote.Foundations.SortedMap

/-!
# Merging what discovery finds

`merge_results` of `discovery.rs`. Three loops fill one map, by address: an entry is made by
whichever source has the address first, the hostname is the first that mDNS gives, and the mac the
first of the ARP table. `Merged` is what the map holds of the findings processed so far; each
loop's step keeps it, and the hosts are read off it (`mergeResults_lossless`).
-/

namespace Rustmote

/-! ### The order of addresses -/

/-- The place of an address in the order: IPv4 addresses come first. -/
def IpAddr.rank : IpAddr → Nat
  | .v4 bits => bits.toNat
  | .v6 bits => 0x100000000 + bits.toNat

theorem IpAddr.rank_injective : Function.Injective IpAddr.rank := by
  intro a b h
  cases a with
  | v4 bits =>
    cases b with
    | v4 bits' => exact congrArg IpAddr.v4 (BitVec.eq_of_toNat_eq h)
    | v6 bits' =>
      have hlt := bits.isLt
      simp only [rank] at h
      omega
  | v6 bits =>
    cases b with
    | v4 bits' =>
      have hlt := bits'.isLt
      simp only [rank] at h
      omega
    | v6 bits' =>
      simp only [rank] at h
      exact congrArg IpAddr.v6 (BitVec.eq_of_toNat_eq (by omega))

instance linearOrderIpAddr : LinearOrder IpAddr := LinearOrder.lift' IpAddr.rank IpAddr.rank_injective

namespace Discovery

/-- `DiscoveredHost`. -/
structure DiscoveredHost where
  ip : IpAddr
  hostname : Option Str
  mac : Option Str
  isKnownServer : Bool
  deriving DecidableEq

/-- `MdnsFinding`. -/
structure MdnsFinding where
  ip : IpAddr
  hostname : Option Str

/-- The host that `entry(ip).or_insert_with(..)` gives: the one of the map, or a new one. -/
def entry (known : List IpAddr) (byIp : BTreeMap IpAddr DiscoveredHost) (ip : IpAddr) :
    DiscoveredHost :=
  (byIp.get ip).getD { ip := ip, hostname := none, mac := none, isKnownServer := ip ∈ known }

/-- The loop over the mDNS findings. -/
def addFinding (known : List IpAddr) (byIp : BTreeMap IpAddr DiscoveredHost)
    (finding : MdnsFinding) : BTreeMap IpAddr DiscoveredHost :=
  let host := entry known byIp finding.ip
  byIp.insert finding.ip
    (if host.hostname.isNone then { host with hostname := finding.hostname } else host)

/-- The loop over the addresses that answered a ping. -/
def addIcmp (known : List IpAddr) (byIp : BTreeMap IpAddr DiscoveredHost) (ip : IpAddr) :
    BTreeMap IpAddr DiscoveredHost :=
  byIp.insert ip (entry known byIp ip)

/-- The loop over the ARP table. -/
def addArp (known : List IpAddr) (byIp : BTreeMap IpAddr DiscoveredHost) (row : IpAddr × Str) :
    BTreeMap IpAddr DiscoveredHost :=
  let host := entry known byIp row.1
  byIp.insert row.1 (if host.mac.isNone then { host with mac := some row.2 } else host)

/-- `merge_results`. -/
def mergeResults (mdns : List MdnsFinding) (icmp : List IpAddr) (arp : List (IpAddr × Str))
    (knownServers : List IpAddr) : List DiscoveredHost :=
  let byIp := mdns.foldl (addFinding knownServers) .empty
  let byIp := icmp.foldl (addIcmp knownServers) byIp
  let byIp := arp.foldl (addArp knownServers) byIp
  byIp.entries.map Prod.snd

/-! ### What the map holds -/

/-- The first hostname that a finding of this address gives. -/
def firstHostname (mdns : List MdnsFinding) (ip : IpAddr) : Option Str :=
  (mdns.filter fun finding => finding.ip = ip).findSome? (·.hostname)

/-- The first mac of this address. -/
def firstMac (arp : List (IpAddr × Str)) (ip : IpAddr) : Option Str :=
  (arp.find? fun row => row.1 = ip).map Prod.snd

/-- One of the sources has found this address. -/
def Found (mdns : List MdnsFinding) (icmp : List IpAddr) (arp : List (IpAddr × Str))
    (ip : IpAddr) : Prop :=
  (∃ finding ∈ mdns, finding.ip = ip) ∨ ip ∈ icmp ∨ ∃ row ∈ arp, row.1 = ip

/-- What is known of an address. -/
def hostOf (mdns : List MdnsFinding) (arp : List (IpAddr × Str)) (known : List IpAddr)
    (ip : IpAddr) : DiscoveredHost where
  ip := ip
  hostname := firstHostname mdns ip
  mac := firstMac arp ip
  isKnownServer := ip ∈ known

/-- The map holds what these findings say. -/
structure Merged (known : List IpAddr) (mdns : List MdnsFinding) (icmp : List IpAddr)
    (arp : List (IpAddr × Str)) (byIp : BTreeMap IpAddr DiscoveredHost) : Prop where
  /-- An address that was found has its host. -/
  found : ∀ ip, Found mdns icmp arp ip → byIp.get ip = some (hostOf mdns arp known ip)
  /-- Any other has none. -/
  missing : ∀ ip, ¬ Found mdns icmp arp ip → byIp.get ip = none

section

variable {known : List IpAddr} {mdns : List MdnsFinding} {icmp : List IpAddr}
  {arp : List (IpAddr × Str)} {byIp : BTreeMap IpAddr DiscoveredHost}

theorem firstHostname_of_not_found {ip : IpAddr} (h : ¬ Found mdns icmp arp ip) :
    firstHostname mdns ip = none := by
  have hnone : mdns.filter (fun finding => finding.ip = ip) = [] := by
    rw [List.filter_eq_nil_iff]
    exact fun finding hmem hip => h (.inl ⟨finding, hmem, of_decide_eq_true hip⟩)
  rw [firstHostname, hnone]
  rfl

theorem firstMac_of_not_found {ip : IpAddr} (h : ¬ Found mdns icmp arp ip) :
    firstMac arp ip = none := by
  have hnone : (arp.find? fun row => row.1 = ip) = none := by
    rw [List.find?_eq_none]
    exact fun row hmem hip => h (.inr (.inr ⟨row, hmem, of_decide_eq_true hip⟩))
  rw [firstMac, hnone]
  rfl

/-- An entry is what is known of its address, found or not. -/
theorem Merged.entry_eq (h : Merged known mdns icmp arp byIp) (ip : IpAddr) :
    entry known byIp ip = hostOf mdns arp known ip := by
  rw [entry]
  by_cases hfound : Found mdns icmp arp ip
  · rw [h.found ip hfound]
    rfl
  · rw [h.missing ip hfound, hostOf, firstHostname_of_not_found hfound,
      firstMac_of_not_found hfound]
    rfl

/-- **One step of any loop**: the address at hand gets its host, if the others keep theirs. -/
theorem Merged.insert (h : Merged known mdns icmp arp byIp) {mdns' : List MdnsFinding}
    {icmp' : List IpAddr} {arp' : List (IpAddr × Str)} {ip : IpAddr}
    (hfound : ∀ other, Found mdns' icmp' arp' other ↔ other = ip ∨ Found mdns icmp arp other)
    (hothers : ∀ other, other ≠ ip → hostOf mdns' arp' known other = hostOf mdns arp known other) :
    Merged known mdns' icmp' arp' (byIp.insert ip (hostOf mdns' arp' known ip)) := by
  constructor
  · intro other hother
    rw [BTreeMap.get_insert]
    split_ifs with heq
    · rw [heq]
    · rw [h.found other (((hfound other).mp hother).resolve_left heq), hothers other heq]
  · intro other hother
    obtain ⟨hne, hmissing⟩ := not_or.mp (mt (hfound other).mpr hother)
    rw [BTreeMap.get_insert, if_neg hne, h.missing other hmissing]

theorem firstHostname_concat (mdns : List MdnsFinding) (finding : MdnsFinding) (ip : IpAddr) :
    firstHostname (mdns ++ [finding]) ip =
      (firstHostname mdns ip).or (if finding.ip = ip then finding.hostname else none) := by
  rw [firstHostname, List.filter_append, List.findSome?_append, firstHostname]
  by_cases h : finding.ip = ip
  · simp [h]
  · simp [h]

theorem firstMac_concat (arp : List (IpAddr × Str)) (row : IpAddr × Str) (ip : IpAddr) :
    firstMac (arp ++ [row]) ip = (firstMac arp ip).or (if row.1 = ip then some row.2 else none) := by
  rw [firstMac, List.find?_append, firstMac]
  by_cases h : row.1 = ip
  · cases arp.find? fun row => row.1 = ip <;> simp [h]
  · cases arp.find? fun row => row.1 = ip <;> simp [h]

theorem Merged.addFinding (h : Merged known mdns icmp arp byIp) (finding : MdnsFinding) :
    Merged known (mdns ++ [finding]) icmp arp (addFinding known byIp finding) := by
  have hhost : hostOf (mdns ++ [finding]) arp known finding.ip =
      if (hostOf mdns arp known finding.ip).hostname.isNone then
        { hostOf mdns arp known finding.ip with hostname := finding.hostname }
      else hostOf mdns arp known finding.ip := by
    rw [hostOf, firstHostname_concat, if_pos rfl]
    cases hname : firstHostname mdns finding.ip <;> simp [hostOf, hname]
  rw [Discovery.addFinding, h.entry_eq, ← hhost]
  refine h.insert (fun other => ?_) fun other hne => ?_
  · simp only [Found, List.mem_append, List.mem_singleton, or_and_right, exists_or, exists_eq_left]
    grind
  · rw [hostOf, hostOf, firstHostname_concat, if_neg (Ne.symm hne), Option.or_none]

theorem Merged.addIcmp (h : Merged known mdns icmp arp byIp) (ip : IpAddr) :
    Merged known mdns (icmp ++ [ip]) arp (addIcmp known byIp ip) := by
  rw [Discovery.addIcmp, h.entry_eq]
  refine h.insert (fun other => ?_) fun _ _ => rfl
  simp only [Found, List.mem_append, List.mem_singleton]
  grind

theorem Merged.addArp (h : Merged known mdns icmp arp byIp) (row : IpAddr × Str) :
    Merged known mdns icmp (arp ++ [row]) (addArp known byIp row) := by
  have hhost : hostOf mdns (arp ++ [row]) known row.1 =
      if (hostOf mdns arp known row.1).mac.isNone then
        { hostOf mdns arp known row.1 with mac := some row.2 }
      else hostOf mdns arp known row.1 := by
    rw [hostOf, firstMac_concat, if_pos rfl]
    cases hmac : firstMac arp row.1 <;> simp [hostOf, hmac]
  rw [Discovery.addArp, h.entry_eq, ← hhost]
  refine h.insert (fun other => ?_) fun other hne => ?_
  · simp only [Found, List.mem_append, List.mem_singleton, or_and_right, exists_or, exists_eq_left]
    grind
  · rw [hostOf, hostOf, firstMac_concat, if_neg (Ne.symm hne), Option.or_none]

/-! ### All findings -/

theorem merged_empty (known : List IpAddr) : Merged known [] [] [] .empty := by
  refine ⟨fun ip h => ?_, fun ip _ => BTreeMap.get_empty ip⟩
  simp [Found] at h

theorem Merged.foldl_addFinding (h : Merged known mdns icmp arp byIp) (more : List MdnsFinding) :
    Merged known (mdns ++ more) icmp arp (more.foldl (Discovery.addFinding known) byIp) := by
  induction more generalizing mdns byIp with
  | nil => simpa using h
  | cons finding more ih => simpa using ih (h.addFinding finding)

theorem Merged.foldl_addIcmp (h : Merged known mdns icmp arp byIp) (more : List IpAddr) :
    Merged known mdns (icmp ++ more) arp (more.foldl (Discovery.addIcmp known) byIp) := by
  induction more generalizing icmp byIp with
  | nil => simpa using h
  | cons ip more ih => simpa using ih (h.addIcmp ip)

theorem Merged.foldl_addArp (h : Merged known mdns icmp arp byIp) (more : List (IpAddr × Str)) :
    Merged known mdns icmp (arp ++ more) (more.foldl (Discovery.addArp known) byIp) := by
  induction more generalizing arp byIp with
  | nil => simpa using h
  | cons row more ih => simpa using ih (h.addArp row)

/-- The map that `merge_results` reads the hosts from. -/
theorem exists_merged (mdns : List MdnsFinding) (icmp : List IpAddr) (arp : List (IpAddr × Str))
    (known : List IpAddr) :
    ∃ byIp, Merged known mdns icmp arp byIp ∧
      mergeResults mdns icmp arp known = byIp.entries.map Prod.snd :=
  ⟨_, (((merged_empty known).foldl_addFinding mdns).foldl_addIcmp icmp).foldl_addArp arp, rfl⟩

/-- The hosts are those of the addresses that were found. -/
theorem Merged.mem_entries_iff (h : Merged known mdns icmp arp byIp) {ip : IpAddr}
    {host : DiscoveredHost} :
    (ip, host) ∈ byIp.entries ↔ Found mdns icmp arp ip ∧ host = hostOf mdns arp known ip := by
  rw [BTreeMap.mem_entries_iff]
  by_cases hfound : Found mdns icmp arp ip
  · simp [h.found ip hfound, hfound, eq_comm]
  · simp [h.missing ip hfound, hfound]

/-- **What the merge returns** does not depend on how often, or in which order, an address was
pinged or is known. -/
theorem mergeResults_congr {icmp' known' : List IpAddr} (hicmp : ∀ ip, ip ∈ icmp ↔ ip ∈ icmp')
    (hknown : ∀ ip, ip ∈ known ↔ ip ∈ known') :
    mergeResults mdns icmp arp known = mergeResults mdns icmp' arp known' := by
  obtain ⟨byIp, hmerged, heq⟩ := exists_merged mdns icmp arp known
  obtain ⟨byIp', hmerged', heq'⟩ := exists_merged mdns icmp' arp known'
  have hfound : ∀ ip, Found mdns icmp arp ip ↔ Found mdns icmp' arp ip := by
    intro ip
    rw [Found, Found, hicmp]
  have hsame : byIp = byIp' := by
    refine BTreeMap.ext_get fun ip => ?_
    by_cases hip : Found mdns icmp arp ip
    · rw [hmerged.found ip hip, hmerged'.found ip ((hfound ip).mp hip)]
      simp only [hostOf, hknown]
    · rw [hmerged.missing ip hip, hmerged'.missing ip (mt (hfound ip).mpr hip)]
  rw [heq, heq', hsame]

/-- **The merge is lossless and free of duplicates**: the hosts come in strictly increasing order
of their addresses, which are those that some source has found; each has the first hostname and
the first mac of its address, and is known if its address is. -/
theorem mergeResults_lossless (mdns : List MdnsFinding) (icmp : List IpAddr)
    (arp : List (IpAddr × Str)) (known : List IpAddr) :
    (mergeResults mdns icmp arp known).Pairwise (fun a b => a.ip < b.ip) ∧
      (∀ ip, (∃ host ∈ mergeResults mdns icmp arp known, host.ip = ip) ↔
        (∃ finding ∈ mdns, finding.ip = ip) ∨ ip ∈ icmp ∨ ∃ row ∈ arp, row.1 = ip) ∧
      (∀ host ∈ mergeResults mdns icmp arp known,
        host.hostname = (mdns.filter fun finding => finding.ip = host.ip).findSome? (·.hostname) ∧
        host.mac = (arp.find? fun row => row.1 = host.ip).map Prod.snd ∧
        (host.isKnownServer = true ↔ host.ip ∈ known)) ∧
      ∀ icmp' known', (∀ ip, ip ∈ icmp ↔ ip ∈ icmp') → (∀ ip, ip ∈ known ↔ ip ∈ known') →
        mergeResults mdns icmp arp known = mergeResults mdns icmp' arp known' := by
  obtain ⟨byIp, hmerged, heq⟩ := exists_merged mdns icmp arp known
  have hhost : ∀ e ∈ byIp.entries, Found mdns icmp arp e.1 ∧ e.2 = hostOf mdns arp known e.1 :=
    fun e he => hmerged.mem_entries_iff.mp he
  refine ⟨?_, ?_, ?_, fun icmp' known' hicmp hknown => mergeResults_congr hicmp hknown⟩
  · rw [heq, List.pairwise_map]
    refine byIp.sorted.imp_of_mem fun {a b} ha hb hlt => ?_
    rw [(hhost a ha).2, (hhost b hb).2]
    exact hlt
  · intro ip
    rw [heq]
    constructor
    · rintro ⟨host, hmem, rfl⟩
      obtain ⟨e, he, rfl⟩ := List.mem_map.mp hmem
      obtain ⟨hfound, hip⟩ := hhost e he
      rw [hip]
      exact hfound
    · intro hfound
      have hmem := hmerged.mem_entries_iff.mpr ⟨hfound, rfl⟩
      exact ⟨_, List.mem_map_of_mem hmem, rfl⟩
  · intro host hmem
    rw [heq] at hmem
    obtain ⟨e, he, rfl⟩ := List.mem_map.mp hmem
    rw [(hhost e he).2]
    exact ⟨rfl, rfl, by simp [hostOf]⟩

end

end Discovery

end Rustmote
