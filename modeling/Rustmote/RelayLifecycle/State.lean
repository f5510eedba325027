import Rustmote.Error
import Rustmote.Foundations.Civil

/-!
# The state file

The types of `relay_lifecycle/state.rs`. Reading and printing TOML is not part of the
repository: `Toml` is what it offers for a state file, `Toml.RoundTrips` and `Toml.Total` are
what the code relies on.
-/

namespace Rustmote

/-- A single image entry, one for each service of the compose file. -/
structure ImagePin where
  service : Str
  repo : Str
  tag : Str
  digest : Str
  pinnedAt : DateTime
  deriving DecidableEq

/-- The install block. -/
structure InstallMetadata where
  bootstrappedAt : DateTime
  bootstrappedByRustmoteVersion : Str
  /-- The last successful update. -/
  lastUpdatedAt : Option DateTime
  deriving DecidableEq

/-- What the state file says. -/
structure RelayState where
  install : InstallMetadata
  images : List ImagePin
  deriving DecidableEq

/-- The `toml` crate, for a state file. -/
structure Toml where
  /-- `toml::to_string_pretty`. -/
  toStringPretty : RelayState → Except Str Str
  /-- `toml::from_str`. -/
  fromStr : Str → Except Str RelayState

/-- What is printed is read back. -/
def Toml.RoundTrips (toml : Toml) : Prop :=
  ∀ state text, toml.toStringPretty state = .ok text → toml.fromStr text = .ok state

/-- Every state can be printed. -/
def Toml.Total (toml : Toml) : Prop := ∀ state, ∃ text, toml.toStringPretty state = .ok text

namespace RelayState

/-- `RelayState::new_bootstrap`. -/
def newBootstrap (now : DateTime) (rustmoteVersion : Str) (images : List ImagePin) : RelayState :=
  { install :=
      { bootstrappedAt := now
        bootstrappedByRustmoteVersion := rustmoteVersion
        lastUpdatedAt := none }
    images := images }

/-- `RelayState::from_toml_str`. -/
def fromTomlStr (toml : Toml) (raw sourceHint : Str) : Except RustmoteError RelayState :=
  match toml.fromStr raw with
  | .ok state => .ok state
  | .error e => .error (.configParse (.fromStr sourceHint) e)

/-- `RelayState::to_toml_string`. -/
def toTomlString (toml : Toml) (state : RelayState) : Except RustmoteError Str :=
  match toml.toStringPretty state with
  | .ok text => .ok text
  | .error e => .error (.configSerialize e)

/-- `RelayState::apply_update`. -/
def applyUpdate (state : RelayState) (newImages : List ImagePin) (now : DateTime) : RelayState :=
  { state with
    images := newImages
    install := { state.install with lastUpdatedAt := some now } }

theorem fromTomlStr_eq_ok_iff {toml : Toml} {raw hint : Str} {state : RelayState} :
    fromTomlStr toml raw hint = .ok state ↔ toml.fromStr raw = .ok state := by
  unfold fromTomlStr
  cases toml.fromStr raw with
  | ok a => simp
  | error e => simp

theorem toTomlString_eq_ok_iff {toml : Toml} {state : RelayState} {text : Str} :
    toTomlString toml state = .ok text ↔ toml.toStringPretty state = .ok text := by
  unfold toTomlString
  cases toml.toStringPretty state with
  | ok a => simp
  | error e => simp

end RelayState

end Rustmote
