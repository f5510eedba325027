import Rustmote.Foundations.Json
import Rustmote.RelayLifecycle.Commands
import Rustmote.RelayLifecycle.State

/-!
# Parsers and renderers

The functions of `relay_lifecycle/mod.rs` that read a command's output or write the compose
file: `parse_os_release`, `render_compose_with_pins`, `pick_latest_semver`,
`parse_compose_ps_json`.

`renderComposeWithPins` skips a pin whose repository, tag and digest it has seen before;
`renderComposeWithPins_eq_ok_iff` says that nothing unvalidated gets past it that way.
-/

namespace Rustmote

/-- `OsKind`. -/
inductive OsKind where
  | debian | ubuntu | arch
  deriving DecidableEq

/-- What the loop of `parse_os_release` has found: the last `ID=` and the last `ID_LIKE=`. -/
def osReleaseIds (raw : Str) : Option Str × Option Str :=
  (Text.lines raw).foldl
    (fun (id, idLike) line =>
      let line := Text.trim line
      match Text.stripPrefix "ID=".toList line with
      | some rest => (some (Text.toLowercase (Text.trimMatches '"' rest)), idLike)
      | none =>
        match Text.stripPrefix "ID_LIKE=".toList line with
        | some rest => (id, some (Text.toLowercase (Text.trimMatches '"' rest)))
        | none => (id, idLike))
    (none, none)

/-- The closure `match_id` of `parse_os_release`. -/
def matchId (s : Str) : Option OsKind :=
  if s = "debian".toList then some .debian
  else if s = "ubuntu".toList then some .ubuntu
  else if s = "arch".toList ∨ s = "archlinux".toList then some .arch
  else none

/-- `parse_os_release`. -/
def parseOsRelease (raw : Str) : Option OsKind :=
  let (id, idLike) := osReleaseIds raw
  (id.bind matchId).or (idLike.bind fun s => (Text.splitWhitespace s).findSome? matchId)

/-! ### The compose file -/

/-- What `render_compose_with_pins` looks for. -/
def imageLine (repo tag : Str) : Str := "image: ".toList ++ repo ++ ":".toList ++ tag

/-- The loop of `render_compose_with_pins`: the pins seen so far, and the text so far. -/
def renderPins : List (Str × Str × Str) → Str → List ImagePin → Except RustmoteError Str
  | _, out, [] => .ok out
  | seen, out, pin :: pins =>
    let key := (pin.repo, pin.tag, pin.digest)
    if key ∈ seen then renderPins seen out pins
    else do
      let image ← Commands.pinnedImageRef pin.repo pin.tag pin.digest
      renderPins (key :: seen)
        (Text.replace (imageLine pin.repo pin.tag) ("image: ".toList ++ image) out) pins

/-- `render_compose_with_pins`. -/
def renderComposeWithPins (template : Str) (pins : List ImagePin) : Except RustmoteError Str :=
  renderPins [] template pins

/-- The pin passes all three validators. -/
def ImagePin.Valid (pin : ImagePin) : Prop := Commands.ValidRef pin.repo pin.tag pin.digest

/-- The pins of a list that the renderer looks at: the first of those that share repository,
tag and digest. -/
def freshPins : List (Str × Str × Str) → List ImagePin → List ImagePin
  | _, [] => []
  | seen, pin :: pins =>
    let key := (pin.repo, pin.tag, pin.digest)
    if key ∈ seen then freshPins seen pins else pin :: freshPins (key :: seen) pins

/-- Put the digest behind every occurrence of a pin's image line. -/
def insertDigest (out : Str) (pin : ImagePin) : Str :=
  Text.replace (imageLine pin.repo pin.tag)
    ("image: ".toList ++ Commands.imageRef pin.repo pin.tag pin.digest) out

theorem renderPins_eq_ok_iff {seen : List (Str × Str × Str)} {template text : Str}
    {pins : List ImagePin}
    (hseen : ∀ pin ∈ pins, (pin.repo, pin.tag, pin.digest) ∈ seen → pin.Valid) :
    renderPins seen template pins = .ok text ↔
      (∀ pin ∈ pins, pin.Valid) ∧ text = (freshPins seen pins).foldl insertDigest template := by
  induction pins generalizing seen template with
  | nil =>
    rw [renderPins, freshPins]
    simp [eq_comm]
  | cons pin pins ih =>
    have hrest : ∀ p ∈ pins, (p.repo, p.tag, p.digest) ∈ seen → p.Valid := fun p hp =>
      hseen p (List.mem_cons_of_mem _ hp)
    rw [renderPins, freshPins, List.forall_mem_cons]
    by_cases hkey : (pin.repo, pin.tag, pin.digest) ∈ seen
    · -- skipped: it was validated when it was seen
      have hvalid := hseen pin List.mem_cons_self hkey
      simp only [hkey, if_true]
      rw [ih hrest]
      simp [hvalid]
    · simp only [hkey, if_false]
      rw [Except.bind_eq_ok]
      constructor
      · rintro ⟨image, himage, h⟩
        obtain ⟨hvalid, rfl⟩ := Commands.pinnedImageRef_eq_ok_iff.mp himage
        have hnew : ∀ p ∈ pins, (p.repo, p.tag, p.digest) ∈
            (pin.repo, pin.tag, pin.digest) :: seen → p.Valid := by
          intro p hp hmem
          rcases List.mem_cons.mp hmem with heq | hmem
          · simp only [Prod.mk.injEq] at heq
            rw [ImagePin.Valid, heq.1, heq.2.1, heq.2.2]
            exact hvalid
          · exact hrest p hp hmem
        obtain ⟨hall, htext⟩ := (ih hnew).mp h
        exact ⟨⟨hvalid, hall⟩, htext⟩
      · rintro ⟨⟨hvalid, hall⟩, htext⟩
        exact ⟨_, Commands.pinnedImageRef_eq_ok_iff.mpr ⟨hvalid, rfl⟩,
          (ih fun p hp _ => hall p hp).mpr ⟨hall, htext⟩⟩

/-- **What the renderer accepts, and what it makes of the template.** -/
theorem renderComposeWithPins_eq_ok_iff {template text : Str} {pins : List ImagePin} :
    renderComposeWithPins template pins = .ok text ↔
      (∀ pin ∈ pins, pin.Valid) ∧ text = (freshPins [] pins).foldl insertDigest template :=
  renderPins_eq_ok_iff fun _ _ h => absurd h List.not_mem_nil

/-! ### Tags -/

/-- `parse_dotted_numeric`. -/
def parseDottedNumeric (t : Str) : Option (List Nat) :=
  match (t.splitOn '.').mapM Text.parseU64 with
  | none => none
  | some parts => if parts = [] then none else some parts

/-- The loop of `pick_latest_semver`. -/
def pickLatest : Option (List Nat × Str) → List Str → Option (List Nat × Str)
  | best, [] => best
  | best, t :: tags =>
    match parseDottedNumeric t with
    | none => pickLatest best tags
    | some parts =>
      match best with
      | none => pickLatest (some (parts, t)) tags
      | some (cur, _) => pickLatest (if cur < parts then some (parts, t) else best) tags

/-- `pick_latest_semver`. -/
def pickLatestSemver (tags : List Str) : Option Str := (pickLatest none tags).map Prod.snd

/-! ### Containers -/

/-- `Value::get`, of a field. -/
def JsonValue.get (v : JsonValue) (key : Str) : Option JsonValue :=
  match v with
  | .object fields => (fields.find? fun f => f.1 = key).map Prod.snd
  | _ => none

/-- `Value::as_str`. -/
def JsonValue.asStr : JsonValue → Option Str
  | .string s => some s
  | _ => none

/-- `ContainerStatus`. -/
structure ContainerStatus where
  service : Str
  state : Str
  image : Option Str

/-- `row_from_value`. -/
def rowFromValue (v : JsonValue) : Option ContainerStatus := do
  let service ← (← v.get "Service".toList).asStr
  some {
    service := service
    state := ((v.get "State".toList).bind JsonValue.asStr).getD "unknown".toList
    image := (v.get "Image".toList).bind JsonValue.asStr }

/-- `parse_compose_ps_json`; `json` is `serde_json::from_str`. -/
def parseComposePsJson (json : Str → Option JsonValue) (raw : Str) : List ContainerStatus :=
  let trimmed := Text.trim raw
  if trimmed = [] then []
  else
    match json trimmed with
    | some (.array items) => items.filterMap rowFromValue
    | _ => (Text.lines trimmed).filterMap fun line => (json line).bind rowFromValue

end Rustmote
