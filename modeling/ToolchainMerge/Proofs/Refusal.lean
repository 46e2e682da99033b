import ToolchainMerge.Proofs.Statements
import ToolchainMerge.Rule.File

/-!
# Why toolchains are refused

Three things can stand in the way of a rule: the toolchains are invalid, two action configs get
one variable, or two features do.  They are looked for in this order, and the first that is
found is reported (`Refused`).  Names repeated in several toolchains are no obstacle, nor is a
feature with the stem of an action, since the two kinds are told apart by their suffixes.

`mergeToText_exact` says that there is a text exactly if nothing stands in the way, and which
error there is otherwise.  What the user chooses for the file plays no part in either.
-/

namespace ToolchainMerge

open Starlark

variable {toolchains : List Toolchain}

/-- The error with which toolchains are refused. -/
inductive Refused (toolchains : List Toolchain) : MergeError → Prop
  | invalid {error : MergeError} (hinvalid : validate toolchains = .error error) :
      Refused toolchains error
  | actionConfigs {first second : String} (hvalid : validate toolchains = .ok ())
      (hclash : FirstClash (Family.actionConfigs.names toolchains) first second) :
      Refused toolchains
        (.sharedIdentifier .actionConfig (Family.actionConfigs.identifier second) first second)
  | features {first second : String} (hvalid : validate toolchains = .ok ())
      (hconfigs : DistinctStems (Family.actionConfigs.names toolchains))
      (hclash : FirstClash (Family.features.names toolchains) first second) :
      Refused toolchains
        (.sharedIdentifier .feature (Family.features.identifier second) first second)

namespace Rule

theorem refused_of_ofToolchains {error : MergeError}
    (hmerge : ofToolchains toolchains = .error error) : Refused toolchains error := by
  simp only [ofToolchains, bind, Except.bind] at hmerge
  cases hvalid : validate toolchains with
  | error refused =>
      rw [hvalid] at hmerge
      obtain rfl := Except.error.inj hmerge
      exact .invalid hvalid
  | ok accepted =>
      cases hconfigs : Family.actionConfigs.declare "action_configs" toolchains
          (toolchains.map Toolchain.key) with
      | error refused =>
          simp only [hvalid, hconfigs] at hmerge
          obtain rfl := Except.error.inj hmerge
          obtain ⟨first, second, hclash, rfl⟩ := (Family.declare_eq_error_iff _).mp hconfigs
          exact .actionConfigs hvalid hclash
      | ok configs =>
          obtain ⟨hstems, _⟩ := (Family.declare_eq_ok_iff _).mp hconfigs
          cases hfeatures : Family.features.declare "features" toolchains
              (toolchains.map Toolchain.key) with
          | error refused =>
              simp only [hvalid, hconfigs, hfeatures] at hmerge
              obtain rfl := Except.error.inj hmerge
              obtain ⟨first, second, hclash, rfl⟩ := (Family.declare_eq_error_iff _).mp hfeatures
              exact .features hvalid hstems hclash
          | ok features =>
              simp only [hvalid, hconfigs, hfeatures] at hmerge
              cases hmerge

theorem ofToolchains_of_refused {error : MergeError} (hrefused : Refused toolchains error) :
    ofToolchains toolchains = .error error := by
  simp only [ofToolchains, bind, Except.bind]
  cases hrefused with
  | invalid hinvalid => rw [hinvalid]
  | actionConfigs hvalid hclash =>
      rw [hvalid, (Family.declare_eq_error_iff _).mpr ⟨_, _, hclash, rfl⟩]
      rfl
  | features hvalid hstems hclash =>
      rw [hvalid, (Family.declare_eq_ok_iff _).mpr ⟨hstems, rfl⟩,
        (Family.declare_eq_error_iff _).mpr ⟨_, _, hclash, rfl⟩]
      rfl

/-- **Toolchains are refused for one reason**, the first that there is. -/
theorem ofToolchains_eq_error_iff {error : MergeError} :
    ofToolchains toolchains = .error error ↔ Refused toolchains error :=
  ⟨refused_of_ofToolchains, ofToolchains_of_refused⟩

end Rule

/-- **When there is a text, and which error there is otherwise.**  The options of the file have
no influence on either. -/
theorem mergeToText_exact (options : Rule.Options) (toolchains : List Toolchain) :
    ((∃ text, mergeToText options toolchains = .ok text) ↔
        validate toolchains = .ok () ∧ DistinctStems (Family.actionConfigs.names toolchains) ∧
          DistinctStems (Family.features.names toolchains)) ∧
      ∀ error, mergeToText options toolchains = .error error ↔ Refused toolchains error := by
  unfold mergeToText
  cases hmerge : Rule.ofToolchains toolchains with
  | ok rule =>
      obtain ⟨hvalid, hconfigs, hfeatures, _⟩ := Rule.ofToolchains_eq_ok_iff.mp hmerge
      refine ⟨⟨fun _ => ⟨hvalid, hconfigs, hfeatures⟩, fun _ => ⟨_, rfl⟩⟩, fun error => ?_⟩
      rw [← Rule.ofToolchains_eq_error_iff, hmerge]
      exact ⟨fun h => (nomatch h), fun h => (nomatch h)⟩
  | error refused =>
      refine ⟨⟨fun ⟨_, htext⟩ => (nomatch htext), fun ⟨hvalid, hconfigs, hfeatures⟩ => ?_⟩, ?_⟩
      · have hok := Rule.ofToolchains_eq_ok_iff.mpr ⟨hvalid, hconfigs, hfeatures, rfl⟩
        exact nomatch hmerge.symm.trans hok
      · intro error
        rw [← Rule.ofToolchains_eq_error_iff, hmerge]
        exact ⟨fun h => congrArg _ (Except.error.inj h), fun h => congrArg _ (Except.error.inj h)⟩

end ToolchainMerge
