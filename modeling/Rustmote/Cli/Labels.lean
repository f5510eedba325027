import Rustmote.Cli.History

/-!
# Targets by label

`connect` takes a registered id, then a label, then any id. Ids are keys, and an id goes before a
label of the same text. Labels are nicknames, which two targets may share, and then the one that
was added first is meant. So the order in which targets were added is seen only through a label
that two targets have: `resolveTarget_perm_iff`.
-/

namespace Rustmote

/-- Where at most one element fits, the order of a list does not matter to `find?`. -/
theorem find?_eq_of_perm {α : Type} {p : α → Bool} {l l' : List α} (hperm : l.Perm l')
    (hone : ∀ a ∈ l, ∀ b ∈ l, p a = true → p b = true → a = b) : l.find? p = l'.find? p := by
  cases hfind : l.find? p with
  | none =>
    symm
    rw [List.find?_eq_none] at hfind ⊢
    exact fun a ha => hfind a (hperm.mem_iff.mpr ha)
  | some a =>
    have ha : a ∈ l := List.mem_of_find?_eq_some hfind
    have hpa : p a = true := List.find?_some hfind
    have hsome : (l'.find? p).isSome :=
      List.find?_isSome.mpr ⟨a, hperm.mem_iff.mp ha, hpa⟩
    obtain ⟨b, hb⟩ := Option.isSome_iff_exists.mp hsome
    have hbmem : b ∈ l := hperm.mem_iff.mpr (List.mem_of_find?_eq_some hb)
    rw [hb, hone a ha b hbmem hpa (List.find?_some hb)]

namespace Cli

variable {toml : TomlFormat Config} {path : PathBuf} {file : Option Str} {cfg cfg' : Config}

/-- A text that means at most one target: an id, or the label of no two targets. -/
def Unambiguous (cfg : Config) (arg : Str) : Prop :=
  arg ∈ cfg.ids ∨
    ∀ t ∈ cfg.targets, ∀ t' ∈ cfg.targets, t.label = some arg → t'.label = some arg → t = t'

/-- An id is the key of one target. -/
theorem getTarget_perm (hids : cfg.ids.Nodup) (hperm : cfg.targets.Perm cfg'.targets) (arg : Str) :
    cfg.getTarget arg = cfg'.getTarget arg := by
  have hone : ∀ t ∈ cfg.targets, ∀ t' ∈ cfg.targets,
      decide (t.id = arg) = true → decide (t'.id = arg) = true → t = t' := by
    intro t ht t' ht' h h'
    refine List.inj_on_of_nodup_map hids ht ht' ?_
    exact (of_decide_eq_true h).trans (of_decide_eq_true h').symm
  rw [Config.getTarget, Config.getTarget, find?_eq_of_perm hperm hone]

/-- A registered id is found before any label is looked at. -/
theorem getTarget_of_mem_ids {arg : Str} (harg : arg ∈ cfg.ids) :
    ∃ t, cfg.getTarget arg = .ok t := by
  obtain ⟨t, ht, rfl⟩ := List.mem_map.mp harg
  have hsome : (cfg.targets.find? fun t' => t'.id = t.id).isSome :=
    List.find?_isSome.mpr ⟨t, ht, by simp⟩
  obtain ⟨found, hfound⟩ := Option.isSome_iff_exists.mp hsome
  exact ⟨found, by rw [Config.getTarget, hfound]⟩

/-- The three stages of `resolve_target`, on configs with the same targets. -/
theorem resolveTarget_eq_of_perm (hids : cfg.ids.Nodup) (hperm : cfg.targets.Perm cfg'.targets)
    {arg : Str} (harg : Unambiguous cfg arg) : resolveTarget cfg arg = resolveTarget cfg' arg := by
  rw [resolveTarget, resolveTarget, ← getTarget_perm hids hperm]
  rcases harg with hid | hlabel
  · obtain ⟨t, ht⟩ := getTarget_of_mem_ids hid
    rw [ht]
  · have hone : ∀ t ∈ cfg.targets, ∀ t' ∈ cfg.targets,
        decide (t.label = some arg) = true → decide (t'.label = some arg) = true → t = t' :=
      fun t ht t' ht' h h' => hlabel t ht t' ht' (of_decide_eq_true h) (of_decide_eq_true h')
    rw [find?_eq_of_perm hperm hone]

/-- A text that is no id, and the label of two targets: with the other one first, that one is
meant. -/
theorem exists_perm_of_not_unambiguous (hcfg : cfg.Sound) {arg : Str}
    (harg : ¬ Unambiguous cfg arg) :
    ∃ cfg' : Config, cfg.targets.Perm cfg'.targets ∧ resolveTarget cfg arg ≠ resolveTarget cfg' arg := by
  obtain ⟨hid, hlabel⟩ := not_or.mp harg
  push Not at hlabel
  obtain ⟨t, ht, t', ht', hlabelt, hlabelt', hne⟩ := hlabel
  have hvalid : ∀ u ∈ cfg.targets, ∃ id, TargetId.new u.id = .ok id := by
    intro u hu
    have hu := hcfg.ids_valid u.id (List.mem_map_of_mem hu)
    exact ⟨⟨u.id, hu⟩, dif_pos hu⟩
  -- a config that finds `u` for the label resolves to it
  have hresolve : ∀ (c : Config) (u : Target), c.targets.Perm cfg.targets → u ∈ cfg.targets →
      (c.targets.find? fun u => u.label = some arg) = some u →
      ∃ id, resolveTarget c arg = .ok (id, some u) := by
    intro c u hperm hu hfind
    have hget : c.getTarget arg = .error (.unknownTarget arg) := by
      have hnone : (c.targets.find? fun u => u.id = arg) = none := by
        rw [List.find?_eq_none]
        intro v hv hvid
        have hvid : v.id = arg := of_decide_eq_true hvid
        exact hid (hvid ▸ List.mem_map_of_mem (hperm.mem_iff.mp hv))
      rw [Config.getTarget, hnone]
    obtain ⟨id, hid⟩ := hvalid u hu
    refine ⟨id, ?_⟩
    rw [resolveTarget, hget, hfind]
    show (do let id ← orContext (TargetId.new u.id) _; pure (id, some u)) = _
    rw [hid]
    rfl
  obtain ⟨a, ha⟩ := Option.isSome_iff_exists.mp (List.find?_isSome.mpr ⟨t, ht, by simpa using hlabelt⟩ :
    (cfg.targets.find? fun u => u.label = some arg).isSome)
  obtain ⟨b, hb, hlabelb, hba⟩ : ∃ b ∈ cfg.targets, b.label = some arg ∧ b ≠ a := by
    by_cases hta : t = a
    · exact ⟨t', ht', hlabelt', fun h => hne (hta.trans h.symm)⟩
    · exact ⟨t, ht, hlabelt, hta⟩
  have hperm := List.perm_cons_erase hb
  refine ⟨{ cfg with targets := b :: cfg.targets.erase b }, hperm, ?_⟩
  obtain ⟨id, hid⟩ := hresolve cfg a (List.Perm.refl _) (List.mem_of_find?_eq_some ha) ha
  obtain ⟨id', hid'⟩ := hresolve { cfg with targets := b :: cfg.targets.erase b } b hperm.symm hb
    (List.find?_cons_of_pos (by simpa using hlabelb))
  rw [hid, hid']
  intro h
  obtain ⟨-, hab⟩ := Prod.mk.inj (Except.ok.inj h)
  exact hba (Option.some.inj hab).symm

/-- **Which target is meant does not depend on the order in which targets were added** just if the
text is the id of a target, or the label of at most one. -/
theorem resolveTarget_perm_iff (hround : toml.RoundTrips) (htotal : toml.Total)
    (hstart : Config.loadFrom toml path file = .ok .empty) (commands : List CliCommand)
    (hload : Config.loadFrom toml path (runAll toml path file commands) = .ok cfg) (arg : Str) :
    (∀ cfg' : Config, cfg.targets.Perm cfg'.targets →
      resolveTarget cfg arg = resolveTarget cfg' arg) ↔ Unambiguous cfg arg := by
  obtain ⟨reached, hreached⟩ := reached_runAll hround htotal hstart commands
  have hsame := hreached.loads
  rw [hload] at hsame
  obtain rfl := Except.ok.inj hsame
  constructor
  · intro h
    by_contra harg
    obtain ⟨cfg', hperm, hne⟩ := exists_perm_of_not_unambiguous hreached.sound harg
    exact hne (h cfg' hperm)
  · intro harg cfg' hperm
    exact resolveTarget_eq_of_perm hreached.sound.ids_nodup hperm harg

/-! ### Two targets with one label -/

/-- `rustmote target add … --label desk`. -/
def addDesk (id : Str) : CliCommand := .targetAdd id (some "desk".toList) none

/-- The target that is added. -/
def deskTarget (id : Str) : Target := ⟨id, none, some "desk".toList, none, none⟩

/-- A config of such targets. -/
def deskConfig (ids : List Str) : Config := { Config.empty with targets := ids.map deskTarget }

/-- Its text. -/
def deskText (ids : List Str) : Str :=
  generalSection ++ ids.flatMap fun id =>
    "\n[[targets]]\nid = \"".toList ++ id ++ "\"\nlabel = \"desk\"\n".toList

/-- Two ids. -/
def nearId : Str := "111111111".toList

/-- The other one. -/
def farId : Str := "222222222".toList

/-- `toml`, with the texts of the configs of these two. -/
def deskToml : TomlFormat Config :=
  .ofTable ([[nearId], [farId], [nearId, farId], [farId, nearId]].map fun ids =>
    (deskConfig ids, deskText ids))

theorem deskToml_roundTrips : deskToml.RoundTrips :=
  TomlFormat.roundTrips_ofTable (by decide +kernel) (by decide +kernel)

theorem loadFrom_near_far :
    Config.loadFrom deskToml configFile
      (runAll deskToml configFile none [addDesk nearId, addDesk farId]) =
      .ok (deskConfig [nearId, farId]) := by decide +kernel

theorem loadFrom_far_near :
    Config.loadFrom deskToml configFile
      (runAll deskToml configFile none [addDesk farId, addDesk nearId]) =
      .ok (deskConfig [farId, nearId]) := by decide +kernel

/-- The label means the target that was added first. -/
theorem resolveTarget_depends_on_order :
    ∃ cfg cfg', Config.loadFrom deskToml configFile
        (runAll deskToml configFile none [addDesk nearId, addDesk farId]) = .ok cfg ∧
      Config.loadFrom deskToml configFile
        (runAll deskToml configFile none [addDesk farId, addDesk nearId]) = .ok cfg' ∧
      cfg.targets.Perm cfg'.targets ∧
      resolveTarget cfg "desk".toList ≠ resolveTarget cfg' "desk".toList :=
  ⟨_, _, loadFrom_near_far, loadFrom_far_near, List.Perm.swap _ _ _, by decide +kernel⟩

/-- An id means its target in every order. -/
theorem resolveTarget_perm_near :
    resolveTarget (deskConfig [nearId, farId]) nearId =
      resolveTarget (deskConfig [farId, nearId]) nearId :=
  (resolveTarget_perm_iff deskToml_roundTrips (TomlFormat.total_ofTable _) rfl
    [addDesk nearId, addDesk farId] loadFrom_near_far nearId).mpr (.inl (by decide +kernel))
    _ (List.Perm.swap _ _ _)

end Cli

end Rustmote
