import Switchboard.Document
import Switchboard.Matching

/-!
# Configurations

Settings of sessions and of matching, read from JSON texts.  A text is an object
of settings, of which unknown ones are passed over and known ones may occur
once, or a list of the settings in order; a setting that is absent has its
default.
-/

namespace Switchboard

/-- Whether steps are recorded, and how many a session may take. -/
structure SessionConfig where
  recordHistory : Bool
  stepLimit : Option Nat
deriving DecidableEq

def SessionConfig.default : SessionConfig := ⟨false, none⟩

/-- What went wrong with the text of a configuration. -/
inductive ConfigError where
  | deserializationFailed
deriving DecidableEq

namespace Config

/-- Finds the setting of a name in an object, which must not be there twice. -/
def setting? (name : String) (fields : List (Option String × Document)) :
    Option (Option Document) :=
  match fields.filter fun (key, _) => key = some name with
  | [] => some none
  | [(_, content)] => some (some content)
  | _ => none

/-- The settings in order, each `none` if it is absent.  The names of an object
must be texts. -/
def settings? (names : List String) : Document → Option (List (Option Document))
  | .object fields =>
      if fields.all fun (key, _) => key.isSome then names.mapM fun name => setting? name fields
      else none
  | .array items =>
      if items.length ≤ names.length then
        some (items.map some ++ List.replicate (names.length - items.length) none)
      else none
  | _ => none

def flag? (absent : Bool) : Option Document → Option Bool
  | none => some absent
  | some (.bool value) => some value
  | some _ => none

/-- One more than the largest count. -/
def countBound : Nat :=
  Nat.pow 2 64

/-- A count is spelled with digits only. -/
def count? (text : NumberText) : Option Nat :=
  if text.negative || text.fraction.isSome || text.exponent.isSome then none
  else
    let value := Digits.value text.whole
    if value < countBound then some value else none

/-- A limit may be null for none. -/
def limit? : Option Document → Option (Option Nat)
  | none | some .null => some none
  | some (.number text) => (count? text).map some
  | some _ => none

end Config

namespace SessionConfig

def ofDocument? (d : Document) : Option SessionConfig := do
  match ← Config.settings? ["record_history", "step_limit"] d with
  | [record, limit] => some ⟨← Config.flag? default.recordHistory record, ← Config.limit? limit⟩
  | _ => none

def read (text : String) : Except ConfigError SessionConfig :=
  match (Document.read? text).bind ofDocument? with
  | some config => .ok config
  | none => .error .deserializationFailed

end SessionConfig

namespace MatchConfig

def ofDocument? (d : Document) : Option MatchConfig := do
  match ← Config.settings? ["memoize"] d with
  | [memoize] => some ⟨← Config.flag? default.memoize memoize⟩
  | _ => none

def read (text : String) : Except ConfigError MatchConfig :=
  match (Document.read? text).bind ofDocument? with
  | some config => .ok config
  | none => .error .deserializationFailed

end MatchConfig

end Switchboard
