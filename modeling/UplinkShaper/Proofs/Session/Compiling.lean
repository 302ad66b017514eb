import UplinkShaper.Proofs.Classify.Order
import UplinkShaper.Session.Compiled

/-!
Settings that compile. What is compiled is the class tree that the settings ask for, a
rule set for it, and the plan that builds both.
-/

namespace UplinkShaper

namespace Compiled

/-- What compiles was compiled from a class tree and its rules. -/
theorem ofSettings_eq_ok_iff {settings : Settings} {roundTrip : Number} {compiled : Compiled} :
    ofSettings settings roundTrip = .ok compiled ↔
      settings.treeRequest.compile roundTrip = .ok compiled.tree ∧
        RuleSet.build compiled.tree settings.table = .ok compiled.rules ∧
          compiled.plan = Plan.build compiled.tree compiled.rules settings.leafQueue
            settings.logMarks := by
  simp only [ofSettings]
  rw [Result.bind_eq_ok]
  constructor
  · rintro ⟨tree, made, result⟩
    rcases Result.bind_eq_ok.mp result with ⟨rules, built, equal⟩
    rw [← Result.pure_eq_ok.mp equal]
    exact ⟨made, built, rfl⟩
  · rintro ⟨made, built, plan⟩
    refine ⟨_, made, ?_⟩
    rw [built, Result.ok_bind, ← plan]
    rfl

end Compiled

namespace Settings

open RuleSet

/-! ## Documents that compile -/

/-- The settings of a document with their class tree, if rules can be built for it. -/
def treeOf? (document : Value) : Option (Settings × ClassTree) :=
  match ofDocument .system document none with
  | .error _ => none
  | .ok settings =>
      match settings.treeRequest.compile settings.roundTrip with
      | .error _ => none
      | .ok tree => if isBuildable tree settings.table then some (settings, tree) else none

theorem exists_of_treeOf {document : Value} {holds : Settings → ClassTree → Bool}
    (evaluated : (treeOf? document).any (fun found => holds found.1 found.2) = true) :
    ∃ settings compiled, ofDocument .system document none = .ok settings ∧
      Compiled.ofSettings settings settings.roundTrip = .ok compiled ∧
        holds settings compiled.tree = true := by
  rcases (Option.any_eq_true _ _).mp evaluated with ⟨⟨settings, tree⟩, found, isTrue⟩
  unfold treeOf? at found
  split at found
  · cases found
  case h_2 accepted =>
    split at found
    · cases found
    case h_2 made =>
      split at found
      case isTrue buildable =>
        cases found
        rcases exists_build_of_isBuildable buildable with ⟨rules, built⟩
        let plan := Plan.build tree rules settings.leafQueue settings.logMarks
        exact ⟨settings, { tree := tree, rules := rules, plan := plan }, accepted,
          Compiled.ofSettings_eq_ok_iff.mpr ⟨made, built, rfl⟩, isTrue⟩
      case isFalse => cases found

theorem exists_parent_of_all {specs : List TierSpec}
    (whole : specs.all (fun spec => spec.parent matches .whole _) = true) :
    ∀ spec ∈ specs, ∃ parent : Int, spec.parent = .whole parent := by
  intro spec member
  have isWhole := List.all_eq_true.mp whole spec member
  cases shown : spec.parent with
  | whole parent => exact ⟨parent, rfl⟩
  | real double => rw [shown] at isWhole; cases isWhole

end Settings

end UplinkShaper
