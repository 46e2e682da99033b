import ToolchainMerge.Error

/-!
# Validation

What a list of toolchains has to satisfy before it is merged: there is at least one, their
keys differ, no toolchain declares a feature or an action config twice, and no flag group
has more than one variable for a condition that takes one.

Each check is a search for the first violation, so `validate` accepts exactly when all
searches come back empty.  Keys are compared over the whole list before any toolchain is
looked into.
-/

namespace ToolchainMerge

/-- The first element of a list that is among `seen` or occurred earlier in the list. -/
def firstRepeat? {α : Type} [DecidableEq α] (seen : List α) : List α → Option α
  | [] => none
  | element :: rest =>
      if element ∈ seen then some element else firstRepeat? (element :: seen) rest

/-! ## Flag groups -/

namespace FlagGroup

/-- The condition for which this group itself has more than one variable. -/
def ownRepeat? (group : FlagGroup) : Option Directive :=
  if 1 < group.ifAllAvailable.length then some .allAvailable
  else if 1 < group.ifNoneAvailable.length then some .noneAvailable
  else none

mutual

/-- The first repeated condition in a group and the groups nested in it, a group coming
before those inside it. -/
def repeat? : FlagGroup → Option Directive
  | group@⟨_, groups, _, _, _, _, _, _⟩ => (ownRepeat? group).or (repeatAmong? groups)

/-- The first repeated condition in some groups and the groups nested in them. -/
def repeatAmong? : List FlagGroup → Option Directive
  | [] => none
  | group :: groups => (repeat? group).or (repeatAmong? groups)

end

end FlagGroup

/-- The first repeated condition in the flag groups of some flag sets. -/
def FlagSet.repeatAmong? (flagSets : List FlagSet) : Option Directive :=
  flagSets.findSome? fun flagSet => FlagGroup.repeatAmong? flagSet.groups

/-! ## Toolchains -/

namespace Toolchain

/-- An item that the toolchain declares twice. -/
def repeatedItem? (toolchain : Toolchain) (kind : ItemKind) (names : List String) :
    Option MergeError :=
  (firstRepeat? [] names).map fun name => .repeatedItem kind name toolchain.identifier

/-- The first violation inside one toolchain: repeated features, repeated action configs,
then the flag groups of features, then those of action configs. -/
def violation? (toolchain : Toolchain) : Option MergeError :=
  (toolchain.repeatedItem? .feature (toolchain.features.map (·.name))).or <|
  (toolchain.repeatedItem? .actionConfig (toolchain.actionConfigs.map (·.actionName))).or <|
  (toolchain.features.findSome? fun feature =>
    (FlagSet.repeatAmong? feature.flagSets).map (.repeatedDirective .feature feature.name)).or <|
  toolchain.actionConfigs.findSome? fun config =>
    (FlagSet.repeatAmong? config.flagSets).map
      (.repeatedDirective .actionConfig config.actionName)

/-- The first violation in a list of toolchains. -/
def violationAmong? : List Toolchain → Option MergeError
  | [] => some .noToolchains
  | toolchains =>
      ((firstRepeat? [] (toolchains.map key)).map .repeatedKey).or
        (toolchains.findSome? violation?)

end Toolchain

/-- Accepts the toolchains, or refuses them with their first violation. -/
def validate (toolchains : List Toolchain) : Except MergeError Unit :=
  match Toolchain.violationAmong? toolchains with
  | some error => .error error
  | none => .ok ()

end ToolchainMerge
