import UplinkShaper.Proofs.Allocation.Doubles
import UplinkShaper.Proofs.Json.RoundTrip
import UplinkShaper.Proofs.Session.Checking

/-!
Descriptions of sessions. What a class tree, its rules and their plan are described by has a form
in JSON if the numbers in the tree are those of doubles, and so has the document that a session is
saved as.
-/

namespace UplinkShaper

open Value (IsDocument)

namespace Value

variable {α : Type} {fields : List (String × Value)}

theorem IsDocument.whole (value : Int) : IsDocument (.whole value) :=
  .number trivial

theorem IsDocument.ofOption {toValue : α → Value} {option : Option α}
    (each : ∀ value ∈ option, (toValue value).IsDocument) :
    (Value.ofOption toValue option).IsDocument := by
  cases option with
  | none => exact .null
  | some value => exact each value rfl

theorem IsDocument.ofTexts (texts : List String) : IsDocument (.list (texts.map .text)) := by
  refine .list fun item member => ?_
  rcases List.mem_map.mp member with ⟨text, _, rfl⟩
  exact .text text

theorem IsDocument.ofMap {toValue : α → Value} {items : List α}
    (each : ∀ item ∈ items, (toValue item).IsDocument) :
    IsDocument (.list (items.map toValue)) := by
  refine .list fun item member => ?_
  rcases List.mem_map.mp member with ⟨item, isItem, rfl⟩
  exact each item isItem

end Value

/-! ## Class trees -/

theorem ServiceCurve.HasDoubles.isDocument {curve : ServiceCurve} (doubles : curve.HasDoubles) :
    curve.toValue.IsDocument := by
  unfold toValue
  cases found : curve.burst with
  | none =>
      refine .record (by simp) ?_
      simp only [List.forall_mem_cons]
      exact ⟨.number doubles.sustained, List.forall_mem_nil _⟩
  | some burst =>
      refine .record (by simp) ?_
      simp only [List.forall_mem_cons]
      exact ⟨.number doubles.sustained, .number (doubles.burst burst found),
        .ofOption fun duration _ => .whole duration, List.forall_mem_nil _⟩

theorem Tier.HasDoubles.isDocument {tier : Tier} (doubles : tier.HasDoubles) :
    tier.toValue.IsDocument := by
  refine .record (by simp) ?_
  simp only [List.forall_mem_cons]
  exact ⟨.whole _, .text _, .text _, .text _, .text _, .text _,
    .ofOption fun share isShare => .number (doubles.share share isShare), .whole _,
    doubles.curve.isDocument, .whole _, .boolean _, List.forall_mem_nil _⟩

theorem ClassTree.HasDoubles.isDocument {tree : ClassTree} (doubles : tree.HasDoubles) :
    tree.toValue.IsDocument := by
  have capacity : tree.capacity.toValue.IsDocument := by
    refine .record (by simp) ?_
    simp only [List.forall_mem_cons]
    exact ⟨.text _, .whole _, List.forall_mem_nil _⟩
  refine .record (by simp) ?_
  simp only [List.forall_mem_cons]
  exact ⟨capacity, .ofMap fun tier member => (doubles tier member).isDocument,
    .ofMap fun warning _ => .text warning.message, List.forall_mem_nil _⟩

/-! ## Rules and plans -/

theorem MatchSpec.isDocument_toValue (spec : MatchSpec) : spec.toValue.IsDocument := by
  refine .record (by simp [fields]) ?_
  simp only [fields, List.forall_mem_cons]
  exact ⟨.text _, .ofOption fun text _ => .text text, .ofOption fun port _ => .whole port,
    .ofOption fun port _ => .whole port, .ofOption fun text _ => .text text,
    .ofOption fun text _ => .text text, List.forall_mem_nil _⟩

theorem RuleSet.isDocument_toValue (rules : RuleSet) : rules.toValue.IsDocument := by
  have isRule (rule : ClassificationRule) : rule.toValue.IsDocument := by
    refine .record (by simp) ?_
    simp only [List.forall_mem_cons]
    exact ⟨.whole _, .whole _, rule.spec.isDocument_toValue, List.forall_mem_nil _⟩
  have isFilter (filter : MarkFilter) : filter.toValue.IsDocument := by
    refine .record (by simp) ?_
    simp only [List.forall_mem_cons]
    exact ⟨.whole _, .text _, .whole _, List.forall_mem_nil _⟩
  refine .record (by simp) ?_
  simp only [List.forall_mem_cons]
  exact ⟨.ofMap fun rule _ => isRule rule, .ofMap fun filter _ => isFilter filter,
    List.forall_mem_nil _⟩

/-! ## Sessions -/

namespace Session

open Host

variable {host : Host} {id : SessionId} {session : Session}

/-- The numbers that a session is described with can be doubles, as those of every session can
that was made of read ones. -/
structure HasDoubles (session : Session) : Prop where
  asked : session.settings.treeRequest.HasDoubles
  applied : ∀ applied ∈ session.applied, applied.compiled.tree.HasDoubles

/-- A session is described by what it has applied or what its settings compile to. -/
theorem describe_cases (known : host.sessions[id]? = some session) (doubles : session.HasDoubles) :
    ∃ log, (∃ failure, describe id host = .done { host with log := log } (.error failure)) ∨
      ∃ compiled, describe id host =
          .done { host with log := log } (.ok (session.description compiled)) ∧
        compiled.tree.HasDoubles := by
  unfold describe
  rw [session_bind_apply known]
  cases isApplied : session.applied with
  | some applied =>
      exact ⟨host.log, .inr ⟨applied.compiled, rfl, doubles.applied applied isApplied⟩⟩
  | none =>
      rcases compile_eq known with ⟨log, done⟩
      refine ⟨log, ?_⟩
      cases compiles : Compiled.ofSettings session.settings
          (session.roundTripFor session.settings) with
      | error failure =>
          rw [compiles] at done
          exact .inl ⟨failure, Operation.bind_of_error done⟩
      | ok compiled =>
          rw [compiles] at done
          refine .inr ⟨compiled, Operation.bind_of_ok done, ?_⟩
          exact doubles.asked.of_compile (Compiled.ofSettings_eq_ok_iff.mp compiles).1

/-- The part of a document for listings, if they were asked for. -/
def listingFields : Option (List (String × Value)) → List (String × Value)
  | some entries => [("backend", .record entries)]
  | none => []

/-- What is saved of a session: its description, when that was, and the listings that were
asked for. -/
def savedDocument (described : List (String × Value)) (savedAt : Moment)
    (listings : Option (List (String × Value))) : Value :=
  .record (described ++ [("saved_at", .text savedAt.text)] ++ listingFields listings)

theorem isDocument_savedDocument (session : Session) {compiled : Compiled}
    (doubles : compiled.tree.HasDoubles)
    (savedAt : Moment) {listings : Option (List (String × Value))}
    (each : ∀ entries ∈ listings, IsDocument (.record entries)) :
    (savedDocument (session.description compiled) savedAt listings).IsDocument := by
  have described : ∀ field ∈ session.description compiled ++ [("saved_at", .text savedAt.text)],
      field.2.IsDocument := by
    simp only [description, List.cons_append, List.nil_append, List.forall_mem_cons]
    exact ⟨.text _, .ofOption fun applied _ => .text _, doubles.isDocument,
      compiled.rules.isDocument_toValue, .ofTexts _, .text _, List.forall_mem_nil _⟩
  cases listings with
  | none =>
      refine .record (by simp [description, listingFields]) ?_
      rwa [listingFields, List.append_nil]
  | some entries =>
      refine .record (by simp [description, listingFields]) ?_
      refine List.forall_mem_append.mpr ⟨described, ?_⟩
      exact List.forall_mem_singleton.mpr (each entries rfl)

end Session

end UplinkShaper
