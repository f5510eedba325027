import Rustmote.Foundations.TomlFormat
import Rustmote.RelayLifecycle.Host

/-!
# A host that can be run

A `Script` says how far each command gets, what commands print, and what the registry and the
clock answer. `Script.host` carries commands out on a file tree by it, and is a `Host`: what is
assumed of hosts can be met, and runs on it can be computed. `Toml.ofTable` does the same for the
`toml` crate, and `Sample` is a relay to run things on.
-/

namespace Rustmote

open Interaction (Env)

/-- What a simulated host does of its own. -/
structure Script where
  /-- How many actions of a command are done at most, at a time. -/
  reaches : Nat → Str → Nat
  /-- What a command prints that does not print a file. -/
  prints : Str → Str
  /-- The tags of a repository. -/
  tags : Str → Except RegistryError (List Str)
  /-- The digest of a tag, at a time. -/
  digest : Nat → Str → Str → Except RegistryError Str
  /-- The clock. -/
  now : DateTime

namespace Script

/-- The files and the time of a simulated host. -/
structure World where
  tree : FileTree
  time : Nat

variable (s : Script)

/-- The output of actions that are all done. -/
def output (cmd : Str) (t : FileTree) : List Action → Bytes
  | [.cat p] => (t.fileAt p).getD []
  | _ => Utf8.encode (s.prints cmd)

/-- Run a command. -/
def execute (w : World) (cmd : Str) : ExecOutput × World :=
  match actions cmd with
  | none => (⟨[], [], 2⟩, ⟨w.tree, w.time + 1⟩)
  | some as =>
    let (n, t) := carry as (s.reaches w.time cmd) w.tree
    (⟨s.output cmd w.tree as, [], if as.length ≤ n then 0 else 1⟩, ⟨t, w.time + 1⟩)

/-- Answer a request. -/
def answer (w : World) : (q : Request) → q.Reply × World
  | .exec cmd => (.ok (s.execute w cmd).1, (s.execute w cmd).2)
  | .listTags repo => (s.tags repo, w)
  | .resolveDigest repo tag => (s.digest w.time repo tag, ⟨w.tree, w.time + 1⟩)
  | .now => (s.now, w)
  | .instant => (w.time, w)
  | .sleep d => ((), ⟨w.tree, w.time + d⟩)

/-- **The simulated host is a host.** -/
def host : Host where
  World := World
  env := ⟨s.answer⟩
  tree := World.tree
  clock := World.time
  done w cmd := (carry ((actions cmd).getD []) (s.reaches w.time cmd) w.tree).1
  carried w cmd as has := by
    have hcarried := carried_carry as (s.reaches w.time cmd) w.tree
    simp only [answer, execute, has, Option.getD_some]
    exact hcarried
  status w cmd as out has hout := by
    simp only [answer, execute, has, Except.ok.injEq] at hout
    rw [← hout, has, Option.getD_some]
    by_cases hlen : as.length ≤ (carry as (s.reaches w.time cmd) w.tree).1
    · simp [hlen]
    · simp [hlen]
  printed w cmd p out has hout hcode := by
    simp only [answer, execute, has, Except.ok.injEq] at hout
    rw [← hout] at hcode ⊢
    by_cases hlen : 1 ≤ (carry [.cat p] (s.reaches w.time cmd) w.tree).1
    · obtain ⟨hfile, -⟩ := carried_one (carried_carry [.cat p] (s.reaches w.time cmd) w.tree) hlen
      obtain ⟨b, hb⟩ := FileTree.isFile_iff.mp hfile
      simp [output, hb]
    · simp [hlen] at hcode
  quiet w q hq := by
    cases q with
    | exec cmd => exact absurd rfl (hq cmd)
    | _ => rfl
  forward w q := by
    cases q with
    | exec cmd =>
      simp only [answer, execute]
      split
      · exact Nat.le_succ _
      · exact Nat.le_succ _
    | resolveDigest repo tag => exact Nat.le_succ _
    | sleep d => exact Nat.le_add_right _ _
    | _ => exact le_refl _
  instant w := rfl
  takes w cmd := by
    simp only [answer, execute]
    split
    · exact Nat.lt_succ_self _
    · exact Nat.lt_succ_self _

end Script

/-! ### A toml crate that can be run -/

instance encodableImagePin : Encodable ImagePin :=
  Encodable.ofLeftInverse (fun p => (p.service, p.repo, p.tag, p.digest, p.pinnedAt))
    (fun x => ⟨x.1, x.2.1, x.2.2.1, x.2.2.2.1, x.2.2.2.2⟩) fun _ => rfl

instance encodableRelayState : Encodable RelayState :=
  Encodable.ofLeftInverse
    (fun s => (s.install.bootstrappedAt, s.install.bootstrappedByRustmoteVersion,
      s.install.lastUpdatedAt, s.images))
    (fun x => ⟨⟨x.1, x.2.1, x.2.2.1⟩, x.2.2.2⟩) fun _ => rfl

namespace Toml

/-- A `toml` crate with given texts for the states of a table, and some text for any other. -/
def ofTable (table : List (RelayState × Str)) : Toml where
  toStringPretty := (TomlFormat.ofTable table).toStringPretty
  fromStr := (TomlFormat.ofTable table).fromStr

theorem total_ofTable (table : List (RelayState × Str)) : (ofTable table).Total :=
  TomlFormat.total_ofTable table

/-- What it prints it reads back, if the texts tell the states apart. -/
theorem roundTrips_ofTable {table : List (RelayState × Str)}
    (htexts : ∀ e ∈ table, ∀ e' ∈ table, e.2 = e'.2 → e.1 = e'.1)
    (hmarks : ∀ e ∈ table, e.2 ≠ TomlFormat.marks e.2.length) : (ofTable table).RoundTrips :=
  TomlFormat.roundTrips_ofTable htexts hmarks

/-- A date of a state file. -/
def rfc3339 (t : DateTime) : Str :=
  let s := Civil.formatFileStamp t
  s.take 10 ++ (s.drop 10).map fun c => if c = '-' then ':' else c

/-- A line of a state file. -/
def field (key : String) (value : Str) : Str :=
  key.toList ++ " = ".toList ++ [Shell.doubleQuote] ++ value ++ [Shell.doubleQuote] ++ "\n".toList

/-- A pin of a state file. -/
def pinText (pin : ImagePin) : Str :=
  "\n[[images]]\n".toList ++ field "service" pin.service ++ field "repo" pin.repo ++
    field "tag" pin.tag ++ field "digest" pin.digest ++ field "pinned_at" (rfc3339 pin.pinnedAt)

/-- A state file, for values without characters that need an escape. -/
def stateText (state : RelayState) : Str :=
  "[install]\n".toList ++ field "bootstrapped_at" (rfc3339 state.install.bootstrappedAt) ++
    field "bootstrapped_by_rustmote_version" state.install.bootstrappedByRustmoteVersion ++
    (state.install.lastUpdatedAt.map fun t => field "last_updated_at" (rfc3339 t)).getD [] ++
    state.images.flatMap pinText

/-- The `toml` crate as it is on these states. -/
def sample (states : List RelayState) : Toml := ofTable (states.map fun s => (s, stateText s))

end Toml

/-! ### A sample relay -/

namespace Sample

/-- The tree with the root only. -/
def root : FileTree where
  node q := if q = [] then some .dir else none
  root_dir := rfl
  parent_dir p x h := by simp at h

/-- Put a file and the directories above it. -/
def withFile (t : FileTree) (dir : Path) (name : Str) (content : Str) : FileTree :=
  ((t.mkdirs dir).bind fun t => t.put (dir ++ [name]) (Utf8.encode content)).getD t

/-- The install path. -/
def path : PathBuf := .fromStr "/srv/relay".toList

/-- The repository. -/
def repo : Str := "rustdesk/rustdesk-server".toList

/-- A digest. -/
def digest (c : Char) : Str := "sha256:".toList ++ List.replicate 64 c

/-- When the relay was bootstrapped, and when it is updated. -/
def bootstrappedAt : DateTime := ⟨1776515696, 0⟩

/-- When the relay is updated. -/
def updatedAt : DateTime := ⟨1776602096, 0⟩

/-- A pin of the service. -/
def pin (tag : String) (c : Char) (t : DateTime) : ImagePin :=
  ⟨"hbbs".toList, repo, tag.toList, digest c, t⟩

/-- The state of a fresh relay. -/
def state : RelayState :=
  .newBootstrap bootstrappedAt "0.1.0".toList [pin "1.1.10" 'a' bootstrappedAt]

/-- The state behind an update. -/
def newState : RelayState := state.applyUpdate [pin "1.1.14" 'b' updatedAt] updatedAt

/-- The compose file of a tag. -/
def compose (tag : String) : Str :=
  "services:\n  hbbs:\n    image: ".toList ++ repo ++ ":".toList ++ tag.toList

/-- The files of the relay. -/
def tree : FileTree :=
  withFile (withFile root (place path) composeName (compose ("1.1.10@" ++ String.ofList (digest 'a'))))
    (place path) stateName (Toml.stateText state)

/-- The orchestrator. -/
def relay : RelayLifecycle := ⟨2, 1, 8, Toml.sample [state, newState], fun _ => none⟩

/-- The options of an update. -/
def updateOptions (skipBackup : Bool) : UpdateOptions :=
  ⟨path, compose "1.1.14", true, false, skipBackup⟩

/-- A host on which every command works that `breaks` does not stop after so many actions. -/
def script (breaks : Nat → Str → Option Nat) : Script where
  reaches time cmd := (breaks time cmd).getD 3
  prints _ := []
  tags _ := .ok ["1.1.10".toList, "1.1.14".toList, "latest".toList]
  digest _ _ _ := .ok (digest 'b')
  now := updatedAt

/-- The files and the time at the start. -/
def start : Script.World := ⟨tree, 0⟩

/-- The host of a script that `breaks` stops. -/
abbrev host (breaks : Nat → Str → Option Nat) : Host := (script breaks).host

/-- The events of the update. -/
def updateTrace (breaks : Nat → Str → Option Nat) (skipBackup : Bool) : List Event :=
  (host breaks).env.trace start (relay.update (updateOptions skipBackup))

/-- The host behind the update. -/
def updateEnd (breaks : Nat → Str → Option Nat) (skipBackup : Bool) : (host breaks).World :=
  (host breaks).env.final start (updateTrace breaks skipBackup)

/-- The update, when it fails. -/
theorem runs_update_failure {breaks : Nat → Str → Option Nat} {skipBackup : Bool}
    {e : RustmoteError}
    (h : (host breaks).env.failure start (relay.update (updateOptions skipBackup)) = some e) :
    (host breaks).env.Runs start (relay.update (updateOptions skipBackup))
      (updateTrace breaks skipBackup) (.error e) (updateEnd breaks skipBackup) :=
  Env.runs_failure h

end Sample

end Rustmote
