import Mathlib.Data.List.Nodup
import Rustmote.Config.Registry

/-!
# The keys of the registry

Names of servers and ids of targets are keys: each lookup and each removal goes by the first
match. `add_server` and `add_target` refuse a key that is there. `update_server` hands the whole
record to its closure, the name with it, and does not look at what comes back; so two servers have
one name when a closure gives a server the name of another (`keysKept_iff`).

* `RegistryMethod` — a method with `&mut self`: the config behind it is there, also when it fails.
* `ConfigCall` — a call of one of the five methods that change the registry.
* `KeepsName` — the condition on a closure.
-/

namespace Rustmote

/-! ### Lists with keys -/

section Keys

variable {α κ : Type} [DecidableEq κ] {key : α → κ}

/-- A key that is not there is not found. -/
theorem find?_key_eq_none {k : κ} {l : List α} (h : k ∉ l.map key) :
    (l.find? fun a => key a = k) = none := by
  rw [List.find?_eq_none]
  intro a ha hka
  have hk : key a = k := by simpa using hka
  exact h (hk ▸ List.mem_map_of_mem ha)

variable [BEq κ] [LawfulBEq κ]

/-- The first element with a key is erased: so is the key. -/
theorem map_eraseP_key (k : κ) (l : List α) :
    (l.eraseP fun a => key a = k).map key = (l.map key).erase k := by
  induction l with
  | nil => rfl
  | cons a l ih =>
    by_cases ha : key a = k
    · simp [ha]
    · simp [ha, ih]

/-- The first element with a key, and what becomes of the list when it is modified. -/
theorem exists_of_findIdx?_key {k : κ} {l : List α} {i : Nat}
    (h : (l.findIdx? fun a => key a = k) = some i) (f : α → α) :
    ∃ l₁ a l₂, l = l₁ ++ a :: l₂ ∧ key a = k ∧ (l.find? fun a => key a = k) = some a ∧
      (l.map key).erase k = (l₁ ++ l₂).map key ∧ l.modify i f = l₁ ++ f a :: l₂ := by
  induction l generalizing i with
  | nil => cases h
  | cons a l ih =>
    rw [List.findIdx?_cons] at h
    by_cases ha : key a = k
    · simp only [ha, decide_true, if_true, Option.some.injEq] at h
      subst h
      exact ⟨[], a, l, rfl, ha, by simp [ha], by simp [ha], rfl⟩
    · simp only [ha, decide_false, Bool.false_eq_true, if_false, Option.map_eq_some_iff] at h
      obtain ⟨j, hj, rfl⟩ := h
      obtain ⟨l₁, b, l₂, rfl, hb, hfind, herase, hmodify⟩ := ih hj
      refine ⟨a :: l₁, b, l₂, rfl, hb, ?_, ?_, ?_⟩
      · rw [List.find?_cons_of_neg (by simpa using ha)]
        exact hfind
      · rw [List.map_cons, List.erase_cons_tail (by simpa using ha), herase]
        rfl
      · rw [List.modify_succ_cons, hmodify]
        rfl

/-- **Modifying an element keeps the keys distinct** just if it gets a key that no other has. -/
theorem nodup_modify_iff {k : κ} {l : List α} {i : Nat} (hl : (l.map key).Nodup)
    (h : (l.findIdx? fun a => key a = k) = some i) (f : α → α) :
    ((l.modify i f).map key).Nodup ↔
      ∀ a, (l.find? fun a => key a = k) = some a → key (f a) ∉ (l.map key).erase k := by
  obtain ⟨l₁, a, l₂, rfl, hk, hfind, herase, hmodify⟩ := exists_of_findIdx?_key h f
  have hrest : ((l₁ ++ l₂).map key).Nodup := by
    rw [← herase]
    exact hl.erase k
  have hperm : ((l₁ ++ f a :: l₂).map key).Perm (key (f a) :: (l₁ ++ l₂).map key) :=
    List.perm_middle.map key
  rw [hmodify, hfind, herase, hperm.nodup_iff, List.nodup_cons]
  constructor
  · rintro ⟨hnew, -⟩ b hb
    obtain rfl := Option.some.inj hb
    exact hnew
  · exact fun hnew => ⟨hnew a rfl, hrest⟩

end Keys

/-! ### Methods with `&mut self` -/

/-- A method with `&mut self`. -/
abbrev RegistryMethod (α : Type) := ExceptT RustmoteError (StateM Config) α

namespace RegistryMethod

/-- The result of a method, and the config behind it. -/
def on {α : Type} (method : RegistryMethod α) (cfg : Config) : Except RustmoteError α × Config :=
  method cfg

/-- `Config::add_server`. -/
def addServer (server : RemoteServer) : RegistryMethod Unit := do
  if (← get).servers.any fun s => s.name = server.name then
    throw (.serverAlreadyExists server.name)
  else modify fun cfg => { cfg with servers := cfg.servers ++ [server] }

/-- `Config::remove_server`. -/
def removeServer (name : Str) : RegistryMethod RemoteServer := do
  match (← get).servers.find? fun s => s.name = name with
  | none => throw (.unknownServer name)
  | some server =>
    modify fun cfg => { cfg with servers := cfg.servers.eraseP fun s => s.name = name }
    return server

/-- `Config::update_server`. -/
def updateServer (name : Str) (mutate : RemoteServer → RemoteServer) : RegistryMethod Unit := do
  match (← get).servers.findIdx? fun s => s.name = name with
  | none => throw (.unknownServer name)
  | some i => modify fun cfg => { cfg with servers := cfg.servers.modify i mutate }

/-- `Config::add_target`. -/
def addTarget (target : Target) : RegistryMethod Unit := do
  if (← get).targets.any fun t => t.id = target.id then
    throw (.targetAlreadyExists target.id)
  else modify fun cfg => { cfg with targets := cfg.targets ++ [target] }

/-- `Config::remove_target`. -/
def removeTarget (id : Str) : RegistryMethod Target := do
  match (← get).targets.find? fun t => t.id = id with
  | none => throw (.unknownTarget id)
  | some target =>
    modify fun cfg => { cfg with targets := cfg.targets.eraseP fun t => t.id = id }
    return target

/-- A result with the config it makes, or with the config as it was. -/
def orUnchanged {α : Type} (cfg : Config) :
    Except RustmoteError (α × Config) → Except RustmoteError α × Config
  | .ok (a, cfg') => (.ok a, cfg')
  | .error e => (.error e, cfg)

/-! Each method is the function of the registry, and nothing happens to the config of one that
fails. -/

theorem on_addServer (server : RemoteServer) (cfg : Config) :
    (addServer server).on cfg = orUnchanged cfg ((cfg.addServer server).map ((), ·)) := by
  show (if (cfg.servers.any fun s => s.name = server.name) = true then
      (throw (.serverAlreadyExists server.name) : RegistryMethod Unit)
    else modify fun cfg => { cfg with servers := cfg.servers ++ [server] }) cfg = _
  rw [Config.addServer]
  split_ifs <;> rfl

theorem on_removeServer (name : Str) (cfg : Config) :
    (removeServer name).on cfg = orUnchanged cfg (cfg.removeServer name) := by
  show (match cfg.servers.find? fun s => s.name = name with
    | none => throw (.unknownServer name)
    | some server => do
      modify fun cfg => { cfg with servers := cfg.servers.eraseP fun s => s.name = name }
      return server : RegistryMethod RemoteServer) cfg = _
  rw [Config.removeServer]
  cases cfg.servers.find? fun s => s.name = name <;> rfl

theorem on_updateServer (name : Str) (mutate : RemoteServer → RemoteServer) (cfg : Config) :
    (updateServer name mutate).on cfg =
      orUnchanged cfg ((cfg.updateServer name mutate).map ((), ·)) := by
  show (match cfg.servers.findIdx? fun s => s.name = name with
    | none => throw (.unknownServer name)
    | some i => modify fun cfg => { cfg with servers := cfg.servers.modify i mutate } :
      RegistryMethod Unit) cfg = _
  rw [Config.updateServer]
  cases cfg.servers.findIdx? fun s => s.name = name <;> rfl

theorem on_addTarget (target : Target) (cfg : Config) :
    (addTarget target).on cfg = orUnchanged cfg ((cfg.addTarget target).map ((), ·)) := by
  show (if (cfg.targets.any fun t => t.id = target.id) = true then
      (throw (.targetAlreadyExists target.id) : RegistryMethod Unit)
    else modify fun cfg => { cfg with targets := cfg.targets ++ [target] }) cfg = _
  rw [Config.addTarget]
  split_ifs <;> rfl

theorem on_removeTarget (id : Str) (cfg : Config) :
    (removeTarget id).on cfg = orUnchanged cfg (cfg.removeTarget id) := by
  show (match cfg.targets.find? fun t => t.id = id with
    | none => throw (.unknownTarget id)
    | some target => do
      modify fun cfg => { cfg with targets := cfg.targets.eraseP fun t => t.id = id }
      return target : RegistryMethod Target) cfg = _
  rw [Config.removeTarget]
  cases cfg.targets.find? fun t => t.id = id <;> rfl

end RegistryMethod

/-! ### Calls -/

/-- A call of a method that changes the registry. -/
inductive ConfigCall where
  | addServer (server : RemoteServer)
  | removeServer (name : Str)
  | updateServer (name : Str) (mutate : RemoteServer → RemoteServer)
  | addTarget (target : Target)
  | removeTarget (id : Str)

namespace ConfigCall

/-- Whether the call succeeds, and the config behind it. -/
def on : ConfigCall → Config → Except RustmoteError Unit × Config
  | .addServer server, cfg => (RegistryMethod.addServer server).on cfg
  | .removeServer name, cfg =>
    ((RegistryMethod.removeServer name).on cfg).map (·.map fun _ => ()) fun cfg' => cfg'
  | .updateServer name mutate, cfg => (RegistryMethod.updateServer name mutate).on cfg
  | .addTarget target, cfg => (RegistryMethod.addTarget target).on cfg
  | .removeTarget id, cfg =>
    ((RegistryMethod.removeTarget id).on cfg).map (·.map fun _ => ()) fun cfg' => cfg'

/-- The config that a call makes, or its error. -/
def made : ConfigCall → Config → Except RustmoteError Config
  | .addServer server, cfg => cfg.addServer server
  | .removeServer name, cfg => (cfg.removeServer name).map Prod.snd
  | .updateServer name mutate, cfg => cfg.updateServer name mutate
  | .addTarget target, cfg => cfg.addTarget target
  | .removeTarget id, cfg => (cfg.removeTarget id).map Prod.snd

/-- **A call that fails leaves the config as it is.** -/
theorem on_eq (call : ConfigCall) (cfg : Config) :
    call.on cfg = match call.made cfg with
      | .ok cfg' => (.ok (), cfg')
      | .error e => (.error e, cfg) := by
  cases call with
  | addServer server =>
    rw [on, RegistryMethod.on_addServer, made]
    cases cfg.addServer server <;> rfl
  | removeServer name =>
    rw [on, RegistryMethod.on_removeServer, made]
    cases cfg.removeServer name <;> rfl
  | updateServer name mutate =>
    rw [on, RegistryMethod.on_updateServer, made]
    cases cfg.updateServer name mutate <;> rfl
  | addTarget target =>
    rw [on, RegistryMethod.on_addTarget, made]
    cases cfg.addTarget target <;> rfl
  | removeTarget id =>
    rw [on, RegistryMethod.on_removeTarget, made]
    cases cfg.removeTarget id <;> rfl

/-- **The closure leaves the keys distinct**: what it makes of the server has a name that no
other server has. -/
def KeepsName (cfg : Config) : ConfigCall → Prop
  | .updateServer name mutate =>
    ∀ server, cfg.getServer name = .ok server → (mutate server).name ∉ cfg.names.erase name
  | _ => True

end ConfigCall

/-- Names and ids are distinct. -/
structure Config.KeysDistinct (cfg : Config) : Prop where
  names : cfg.names.Nodup
  ids : cfg.ids.Nodup

theorem getServer_eq_ok_iff {cfg : Config} {name : Str} {server : RemoteServer} :
    cfg.getServer name = .ok server ↔ (cfg.servers.find? fun s => s.name = name) = some server := by
  unfold Config.getServer
  cases cfg.servers.find? fun s => s.name = name <;> simp

/-- **One call**: the keys stay distinct just if the condition is met. -/
theorem keysDistinct_made_iff {cfg cfg' : Config} (hcfg : cfg.KeysDistinct) {call : ConfigCall}
    (h : call.made cfg = .ok cfg') : cfg'.KeysDistinct ↔ call.KeepsName cfg := by
  cases call with
  | addServer server =>
    obtain ⟨hnew, rfl⟩ := Config.addServer_eq_ok h
    refine iff_of_true ⟨?_, hcfg.ids⟩ trivial
    rw [Config.names, List.map_append]
    exact hcfg.names.append (List.nodup_singleton _) (List.disjoint_singleton.mpr hnew)
  | removeServer name =>
    obtain ⟨⟨server, _⟩, hremove, rfl⟩ := Except.map_eq_ok.mp h
    obtain ⟨-, rfl⟩ := Config.removeServer_eq_ok hremove
    exact iff_of_true ⟨hcfg.names.sublist (List.eraseP_sublist.map _), hcfg.ids⟩ trivial
  | updateServer name mutate =>
    obtain ⟨i, hfind, rfl⟩ := Config.updateServer_eq_ok h
    have hnames := nodup_modify_iff hcfg.names hfind mutate
    simp only [ConfigCall.KeepsName, getServer_eq_ok_iff]
    exact ⟨fun hkeys => hnames.mp hkeys.names, fun hkeeps => ⟨hnames.mpr hkeeps, hcfg.ids⟩⟩
  | addTarget target =>
    obtain ⟨hnew, rfl⟩ := Config.addTarget_eq_ok h
    refine iff_of_true ⟨hcfg.names, ?_⟩ trivial
    rw [Config.ids, List.map_append]
    exact hcfg.ids.append (List.nodup_singleton _) (List.disjoint_singleton.mpr hnew)
  | removeTarget id =>
    obtain ⟨⟨target, _⟩, hremove, rfl⟩ := Except.map_eq_ok.mp h
    obtain rfl := Config.removeTarget_eq_ok hremove
    exact iff_of_true ⟨hcfg.names, hcfg.ids.sublist (List.eraseP_sublist.map _)⟩ trivial

/-- A name that was removed is not found, where names were distinct. -/
theorem getServer_of_removeServer {cfg cfg' : Config} (hcfg : cfg.KeysDistinct) {name : Str}
    {server : RemoteServer} (h : cfg.removeServer name = .ok (server, cfg')) :
    cfg'.getServer name = .error (.unknownServer name) := by
  obtain ⟨-, rfl⟩ := Config.removeServer_eq_ok h
  have hgone : name ∉ (cfg.servers.eraseP fun s => s.name = name).map RemoteServer.name := by
    rw [map_eraseP_key]
    exact hcfg.names.not_mem_erase
  unfold Config.getServer
  simp only [find?_key_eq_none hgone]

theorem getTarget_of_removeTarget {cfg cfg' : Config} (hcfg : cfg.KeysDistinct) {id : Str}
    {target : Target} (h : cfg.removeTarget id = .ok (target, cfg')) :
    cfg'.getTarget id = .error (.unknownTarget id) := by
  obtain rfl := Config.removeTarget_eq_ok h
  have hgone : id ∉ (cfg.targets.eraseP fun t => t.id = id).map Target.id := by
    rw [map_eraseP_key]
    exact hcfg.ids.not_mem_erase
  unfold Config.getTarget
  simp only [find?_key_eq_none hgone]

/-! ### All sequences of calls -/

/-- The config behind a sequence of calls, from the default one. -/
def Config.after (calls : List ConfigCall) : Config :=
  calls.foldl (fun cfg call => (call.on cfg).2) .empty

theorem Config.after_concat (calls : List ConfigCall) (call : ConfigCall) :
    Config.after (calls ++ [call]) = (call.on (Config.after calls)).2 := by
  rw [Config.after, List.foldl_append]
  rfl

/-- What the operations promise of a sequence of calls. -/
structure KeysKept (calls : List ConfigCall) : Prop where
  /-- Names are distinct, and ids are, after every call. -/
  distinct : ∀ before rest, calls = before ++ rest → (Config.after before).KeysDistinct
  /-- A call that fails leaves the config unchanged. -/
  unchanged : ∀ before call rest e, calls = before ++ call :: rest →
    (call.on (Config.after before)).1 = .error e →
    (call.on (Config.after before)).2 = Config.after before
  /-- A server that was removed is not found. -/
  serverGone : ∀ before name rest, calls = before ++ .removeServer name :: rest →
    (ConfigCall.on (.removeServer name) (Config.after before)).1 = .ok () →
    (ConfigCall.on (.removeServer name) (Config.after before)).2.getServer name =
      .error (.unknownServer name)
  /-- A target that was removed is not found. -/
  targetGone : ∀ before id rest, calls = before ++ .removeTarget id :: rest →
    (ConfigCall.on (.removeTarget id) (Config.after before)).1 = .ok () →
    (ConfigCall.on (.removeTarget id) (Config.after before)).2.getTarget id =
      .error (.unknownTarget id)

/-- A run whose closures meet the condition keeps the keys distinct. -/
theorem keysDistinct_after {calls : List ConfigCall}
    (hkeeps : ∀ before call rest, calls = before ++ call :: rest →
      call.KeepsName (Config.after before)) : (Config.after calls).KeysDistinct := by
  induction calls using List.reverseRecOn with
  | nil => exact ⟨List.nodup_nil, List.nodup_nil⟩
  | append_singleton calls call ih =>
    have hbefore : (Config.after calls).KeysDistinct := by
      refine ih fun before call' rest heq => hkeeps before call' (rest ++ [call]) ?_
      rw [heq, List.append_assoc, List.cons_append]
    rw [Config.after_concat, call.on_eq]
    split
    · rename_i cfg' hmade
      exact (keysDistinct_made_iff hbefore hmade).mpr (hkeeps calls call [] rfl)
    · exact hbefore

/-- Only a call that finds its server can break the condition. -/
theorem keepsName_of_error {cfg : Config} {call : ConfigCall} {e : RustmoteError}
    (h : call.made cfg = .error e) : call.KeepsName cfg := by
  cases call with
  | updateServer name mutate =>
    intro server hserver
    obtain ⟨hmem, hname⟩ := Config.getServer_eq_ok hserver
    have hsome : (cfg.servers.findIdx? fun s => s.name = name).isSome := by
      rw [List.findIdx?_isSome]
      exact List.any_eq_true.mpr ⟨server, hmem, by simpa using hname⟩
    obtain ⟨i, hi⟩ := Option.isSome_iff_exists.mp hsome
    simp only [ConfigCall.made, Config.updateServer, hi] at h
    cases h
  | addServer server => trivial
  | removeServer name => trivial
  | addTarget target => trivial
  | removeTarget id => trivial

/-- **The operations keep their promises over a run just if every closure that `update_server` is
given leaves the server's name, or gives it one that no other server has.** -/
theorem keysKept_iff (calls : List ConfigCall) :
    KeysKept calls ↔ ∀ before call rest, calls = before ++ call :: rest →
      call.KeepsName (Config.after before) := by
  constructor
  · rintro h before call rest rfl
    have hbefore := h.distinct before (call :: rest) rfl
    have hafter := h.distinct (before ++ [call]) rest (by simp)
    rw [Config.after_concat, call.on_eq] at hafter
    cases hmade : call.made (Config.after before) with
    | ok cfg' =>
      rw [hmade] at hafter
      exact (keysDistinct_made_iff hbefore hmade).mp hafter
    | error e => exact keepsName_of_error hmade
  · intro hkeeps
    have hdistinct : ∀ before rest, calls = before ++ rest →
        (Config.after before).KeysDistinct := by
      rintro before rest rfl
      refine keysDistinct_after fun before' call rest' heq => hkeeps before' call (rest' ++ rest) ?_
      rw [heq, List.append_assoc, List.cons_append]
    refine ⟨hdistinct, ?_, ?_, ?_⟩
    · rintro before call rest e - herror
      rw [call.on_eq] at herror ⊢
      cases hmade : call.made (Config.after before) with
      | ok cfg' =>
        rw [hmade] at herror
        cases herror
      | error e' => rfl
    · intro before name rest heq hok
      rw [ConfigCall.on_eq] at hok ⊢
      cases hremove : (Config.after before).removeServer name with
      | error e =>
        rw [ConfigCall.made, hremove] at hok
        cases hok
      | ok r =>
        rw [ConfigCall.made, hremove]
        exact getServer_of_removeServer (hdistinct before _ heq) hremove
    · intro before id rest heq hok
      rw [ConfigCall.on_eq] at hok ⊢
      cases hremove : (Config.after before).removeTarget id with
      | error e =>
        rw [ConfigCall.made, hremove] at hok
        cases hok
      | ok r =>
        rw [ConfigCall.made, hremove]
        exact getTarget_of_removeTarget (hdistinct before _ heq) hremove

/-- A server of this name. -/
def sampleServer (name : Str) : RemoteServer :=
  .new name (.v4 0x0A000001#32) "charles".toList 22 21116 ⟨1776513600, 0⟩

/-- The first server is given the name of the second. -/
def takingName : List ConfigCall :=
  [.addServer (sampleServer "a".toList), .addServer (sampleServer "b".toList),
    .updateServer "a".toList fun s => { s with name := "b".toList }]

/-- Both servers have one name then. -/
theorem not_keysKept_takingName : ¬ KeysKept takingName := by
  intro h
  have hnodup := (h.distinct takingName [] (by simp)).names
  exact absurd hnodup (by decide +kernel)

end Rustmote
