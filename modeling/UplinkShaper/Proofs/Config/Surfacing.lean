import UplinkShaper.Config.Source
import UplinkShaper.Proofs.Config.Entries
import UplinkShaper.Proofs.Config.Ports
import UplinkShaper.Proofs.Config.Sections

/-!
What comes of malformed configurations. A plain document makes settings or is refused as a
configuration, with one exception: an upload rate that is written with a fraction passes
the schema, and is then refused as that of a class tree.
-/

namespace UplinkShaper

/-! ## Entries -/

namespace MatchSpec

variable {entry : Value}

/-- The protocol of an entry, if it has any, is a text. -/
theorem exists_protocol_of_admits (admitted : Configuration.matchSchema.Admits entry)
    {protocol : Value} (named : ofEntry.protocolOf entry = .ok protocol) :
    ∃ name, protocol = .text name := by
  unfold ofEntry.protocolOf at named
  dsimp only at named
  split at named
  case isFalse => unfold Failure.ofConfiguration at named; cases named
  case isTrue isPresent =>
    cases named
    cases found : entry.field? "protocol" with
    | none =>
        rw [found] at isPresent
        cases isPresent
    | some written =>
        have listed := admitted.field (List.mem_cons_self ..) found
        rcases Schema.exists_name_of_admits listed with ⟨name, _, rfl⟩
        exact ⟨name, rfl⟩

theorem surfaces_protocolOf (plain : entry.isPlain = true) :
    Surfaces (ofEntry.protocolOf entry) := by
  unfold ofEntry.protocolOf
  dsimp only
  split
  · exact .ok _
  · exact .ofConfiguration (Value.isWritable_of_isPlain entry plain)

theorem surfaces_textOrNone {value : Value} (isText : ∃ text, value = .text text) :
    Surfaces (textOrNone value) := by
  rcases isText with ⟨text, rfl⟩
  exact .ok _

theorem surfaces_readPorts (admitted : Configuration.matchSchema.Admits entry)
    (plain : entry.isPlain = true) {side : String} (isPort : side = "dport" ∨ side = "sport")
    {written : Value} (found : entry.field? side = some written) :
    Surfaces (PortRange.read written) := by
  have form : (Schema.scalar [.integer, .text] []).Admits written := by
    rcases isPort with rfl | rfl
    · exact admitted.field (by simp) found
    · exact admitted.field (by simp) found
  rcases Value.isPlain_of_field? plain found with ⟨short, writtenPlain⟩
  refine PortRange.surfaces_read form writtenPlain ?_
  rintro shown rfl
  rcases isPort with rfl | rfl
  · simpa [Value.isShortUnder] using short
  · simpa [Value.isShortUnder] using short

theorem surfaces_ofEntry (admitted : Configuration.matchSchema.Admits entry)
    (plain : entry.isPlain = true) : Surfaces (ofEntry entry) := by
  rw [ofEntry]
  split
  case h_1 =>
    refine (surfaces_protocolOf plain).bind fun protocol named => ?_
    rcases exists_protocol_of_admits admitted named with ⟨name, rfl⟩
    exact .ok _
  case h_2 side only =>
    have member : side ∈ entrySides.filter fun name => (entry.field? name).isSome :=
      only ▸ List.mem_cons_self ..
    rcases List.mem_filter.mp member with ⟨listed, isThere⟩
    rcases Option.isSome_iff_exists.mp isThere with ⟨written, found⟩
    dsimp only
    split
    case isTrue address =>
      have isAddress : Configuration.textSchema.Admits written := by
        rcases address with rfl | rfl
        · exact admitted.field (by simp [Configuration.textSchema]) found
        · exact admitted.field (by simp [Configuration.textSchema]) found
      rw [found, Option.getD_some]
      exact (surfaces_textOrNone (Schema.exists_text_of_admits isAddress)).bind fun _ _ => .ok _
    case isFalse notAddress =>
      have isPort : side = "dport" ∨ side = "sport" := by
        simp only [entrySides, List.mem_cons, List.not_mem_nil, or_false] at listed
        tauto
      refine (surfaces_protocolOf plain).bind fun protocol named => ?_
      rcases exists_protocol_of_admits admitted named with ⟨name, rfl⟩
      dsimp only
      split
      · rw [found, Option.getD_some]
        exact (surfaces_readPorts admitted plain isPort found).bind fun _ _ => .ok _
      · exact .error _
  case h_3 => exact .error _

end MatchSpec

namespace TierSpec

theorem surfaces_ofEntry {entry : Value} (plain : entry.isPlain = true) (kind : TierKind)
    (default : Priority) : Surfaces (ofEntry kind default entry) := by
  refine Surfaces.bind ?_ fun _ _ => .ok _
  unfold priorityOf
  split
  · exact .ok _
  case h_2 written found =>
    split
    · exact .ok _
    · apply Surfaces.ofConfiguration
      have isWritable (name : String) : ((entry.field? name).getD .null).isWritable = true := by
        cases there : entry.field? name with
        | none => rfl
        | some element =>
            exact Value.isWritable_of_isPlain element (Value.isPlain_of_field? plain there).2
      have writtenWritable := isWritable "priority"
      rw [found, Option.getD_some] at writtenWritable
      rw [ConfigurationError.isWritable, isWritable "id", writtenWritable]
      rfl

theorem surfaces_matchesOf {entry : Value} (isEntry : IsEntry entry)
    (plain : entry.isPlain = true) : Surfaces (matchesOf entry) := by
  refine Surfaces.bind (.mapM fun element isElement => ?_) fun _ _ => .ok _
  cases found : entry.field? "matches" with
  | none =>
      rw [found] at isElement
      cases isElement
  | some listed =>
      have admitted := isEntry listed found
      have listedPlain := (Value.isPlain_of_field? plain found).2
      rw [found, Option.getD_some] at isElement
      cases listed with
      | list values =>
          exact MatchSpec.surfaces_ofEntry (admitted.item isElement)
            (Value.arePlain_iff.mp listedPlain element isElement)
      | _ => cases isElement

end TierSpec

namespace Settings

/-! ## Documents -/

theorem surfaces_collectOne {kind : TierKind} {priority : Priority} {entry : Value}
    (isEntry : TierSpec.IsEntry entry) (plain : entry.isPlain = true) (collected : Collected) :
    Surfaces (collectOne kind priority collected entry) :=
  (TierSpec.surfaces_ofEntry plain kind priority).bind fun _ _ =>
    (TierSpec.surfaces_matchesOf isEntry plain).bind fun _ _ => .ok _

theorem isPlain_field {document : Value} (plain : document.isPlain = true) (name : String) :
    (field document [name]).isPlain = true := by
  rw [field, List.foldl_cons, List.foldl_nil]
  cases found : document.field? name with
  | none => rfl
  | some element => exact (Value.isPlain_of_field? plain found).2

theorem surfaces_collect {kind : TierKind} {priority : Priority} {document : Value}
    {name : String} (plain : document.isPlain = true)
    (areEntries : ∀ entry ∈ TierSpec.items (field document [name]), TierSpec.IsEntry entry)
    (table : RuleSet.MatchTable) :
    Surfaces (collect kind priority table (TierSpec.items (field document [name]))) := by
  have listPlain := isPlain_field plain name
  refine Surfaces.foldlM _ fun entry member collected => ?_
  refine surfaces_collectOne (areEntries entry member) ?_ collected
  cases isList : field document [name] with
  | list values =>
      rw [isList] at listPlain member
      exact Value.arePlain_iff.mp listPlain entry member
  | _ =>
      rw [isList] at member
      cases member

/-- The tiers of a complete document: the reserved ones, the others, and the last one. -/
def tiersOf (document : Value) : Except Failure (Collected × Collected × Collected) := do
  let listAt (name : String) : List Value := TierSpec.items (field document [name])
  let reserved ← collect .reserved .realtimeStrict [] (listAt "reserved")
  let tiers ← collect .percentage .shared reserved.table (listAt "tiers")
  let last ← collectOne .percentage .bulk { specs := [], table := tiers.table }
    (field document ["default"])
  return (reserved, tiers, last)

def uploadOf (document : Value) : Value :=
  field document ["bandwidth", "upload_kbps"]

/-- What comes of a complete document: the failure of its tiers, or of its upload rate, or
settings. -/
theorem ofComplete_cases (document : Value) (source : Option Path) :
    (∃ failure, tiersOf document = .error failure ∧
      ofComplete document source = .error failure) ∨
    ∃ tiers, tiersOf document = .ok tiers ∧
      ((∃ failure, LinkCapacity.read .upload (uploadOf document) = .error failure ∧
        ofComplete document source = .error failure) ∨
      ∃ capacity settings, LinkCapacity.read .upload (uploadOf document) = .ok capacity ∧
        ofComplete document source = .ok settings ∧ settings.document = document) := by
  unfold tiersOf ofComplete uploadOf
  dsimp only
  cases collect .reserved .realtimeStrict [] (TierSpec.items (field document ["reserved"])) with
  | error failure => exact .inl ⟨failure, rfl, rfl⟩
  | ok reserved =>
      simp only [Result.ok_bind]
      cases collect .percentage .shared reserved.table
          (TierSpec.items (field document ["tiers"])) with
      | error failure => exact .inl ⟨failure, rfl, rfl⟩
      | ok tiers =>
          simp only [Result.ok_bind]
          cases collectOne .percentage .bulk { specs := [], table := tiers.table }
              (field document ["default"]) with
          | error failure => exact .inl ⟨failure, rfl, rfl⟩
          | ok last =>
              refine .inr ⟨_, rfl, ?_⟩
              cases LinkCapacity.read .upload (field document ["bandwidth", "upload_kbps"]) with
              | error failure => exact .inl ⟨failure, rfl, rfl⟩
              | ok capacity => exact .inr ⟨capacity, _, rfl, rfl, rfl⟩

/-- The tiers of a plain document that the schema admits. -/
theorem surfaces_tiersOf {document : Value} (plain : document.isPlain = true)
    (admitted : Configuration.schema.Admits document) : Surfaces (tiersOf document) := by
  have reserved : ∀ entry ∈ TierSpec.items (field document ["reserved"]),
      TierSpec.IsEntry entry :=
    areEntries_of_admits fun _ found => admitted.field (by simp) found
  have tiers : ∀ entry ∈ TierSpec.items (field document ["tiers"]), TierSpec.IsEntry entry :=
    areEntries_of_admits fun _ found => admitted.field (by simp) found
  have last : TierSpec.IsEntry (field document ["default"]) :=
    isEntry_of_field fun _ found => admitted.field (by simp) found
  exact (surfaces_collect plain reserved _).bind fun _ _ =>
    (surfaces_collect plain tiers _).bind fun _ _ =>
      (surfaces_collectOne last (isPlain_field plain "default") _).bind fun _ _ => .ok _

/-- The upload rate that the schema admits is a positive number without a fraction, however it
is written; one that is written as a whole number can be read, and no other. -/
theorem read_uploadOf {document : Value}
    (admitted : Configuration.positiveSchema.Admits (uploadOf document)) :
    (∃ capacity, LinkCapacity.read .upload (uploadOf document) = .ok capacity) ↔
      ∃ rate, uploadOf document = .whole rate := by
  constructor
  · rcases Schema.exists_number_of_admits admitted with ⟨number, isNumber, _⟩
    rintro ⟨capacity, isRead⟩
    rw [isNumber] at isRead ⊢
    cases number with
    | whole rate => exact ⟨rate, rfl⟩
    | real rate => cases isRead
  · rintro ⟨rate, isWhole⟩
    rw [isWhole] at admitted ⊢
    have positive : 0 < rate := Schema.le_of_admits admitted
    exact ⟨_, dif_pos positive⟩

theorem not_surfaces_read {value : Value} {failure : Failure}
    (fails : LinkCapacity.read .upload value = .error failure) :
    failure.isConfiguration = false := by
  have refused (value : Value) : (LinkCapacity.refusal value).isConfiguration = false := rfl
  unfold LinkCapacity.read at fails
  split at fails
  · split at fails
    · cases fails
    · cases fails
      exact refused _
  · cases fails
    exact refused _

/-- The tiers of a document, merged over the built-in one, can be read, and nothing else of it
is malformed. -/
structure IsOtherwiseRead (complete : Value) : Prop where
  checked : Configuration.schema.check complete = .ok ()
  tiers : ∃ tiers, tiersOf complete = .ok tiers

/-- Settings with all their sections, or a failure that is reported as one of the
configuration. -/
def IsSurfaced : Except Failure Settings → Prop
  | .ok settings => settings.HasSections
  | .error failure => failure.isConfiguration = true

/-- A plain document in which no key comes twice. -/
structure IsReadable (document : Value) : Prop where
  plain : document.isPlain = true
  distinct : document.hasDistinctKeys = true

/-- The built-in documents differ in where the state is kept. -/
theorem builtIn_eq (locations : Locations) : Configuration.builtIn locations =
    Value.merge (Configuration.builtIn .system)
      (.record [("state_path", .text locations.state)]) := rfl

theorem isPlain_builtIn (locations : Locations) :
    (Configuration.builtIn locations).isPlain = true := by
  have systemPlain : (Configuration.builtIn .system).isPlain = true := by decide +kernel
  rw [builtIn_eq]
  exact Value.isPlain_merge systemPlain rfl

/-- Unless something else is wrong with a document, its upload rate is written as a whole
number. -/
def HasWholeUpload (locations : Locations) (document : Value) : Prop :=
  let complete := Value.merge (Configuration.builtIn locations) document
  IsOtherwiseRead complete → ∃ rate, uploadOf complete = .whole rate

theorem isSurfaced_ofDocument_iff (locations : Locations) {document : Value}
    (readable : IsReadable document) (source : Option Path) :
    IsSurfaced (ofDocument locations document source) ↔ HasWholeUpload locations document := by
  unfold ofDocument HasWholeUpload
  dsimp only
  let complete := Value.merge (Configuration.builtIn locations) document
  change IsSurfaced (do Configuration.schema.check complete; ofComplete complete source) ↔
    (IsOtherwiseRead complete → ∃ rate, uploadOf complete = .whole rate)
  have plain : complete.isPlain = true :=
    Value.isPlain_merge (isPlain_builtIn locations) readable.plain
  cases checked : Configuration.schema.check complete with
  | error failure =>
      have isDistinct : Configuration.schema.isDistinct = true := by decide
      refine iff_of_true (Schema.surfaces_check isDistinct plain failure checked) ?_
      intro otherwise
      cases checked.symm.trans otherwise.checked
  | ok _ =>
      have admitted := Schema.admits_of_check checked
      have sections := exists_section_of_check readable.plain readable.distinct checked
      have isPositive : Configuration.positiveSchema.Admits (uploadOf complete) := by
        rcases sections (["bandwidth", "upload_kbps"], Configuration.positiveSchema) (by
          simp [Configuration.schema, Schema.sections]) with ⟨element, found, admitted⟩
        rw [← field_of_at? found] at admitted
        exact admitted
      rw [Result.ok_bind]
      rcases ofComplete_cases complete source with
        ⟨failure, fails, isFailure⟩ | ⟨tiers, areTiers, ⟨failure, notRead, isFailure⟩ |
          ⟨capacity, settings, isRead, isOk, isDocument⟩⟩
      · rw [isFailure]
        refine iff_of_true (surfaces_tiersOf plain admitted failure fails) fun otherwise => ?_
        rcases otherwise.tiers with ⟨_, areTiers⟩
        cases fails.symm.trans areTiers
      · rw [isFailure]
        refine iff_of_false ?_ fun whole => ?_
        · intro surfaced
          have isConfiguration : failure.isConfiguration = true := surfaced
          rw [not_surfaces_read notRead] at isConfiguration
          cases isConfiguration
        · rcases (read_uploadOf isPositive).mpr (whole ⟨checked, tiers, areTiers⟩) with
            ⟨capacity, isRead⟩
          cases notRead.symm.trans isRead
      · rw [isOk]
        refine iff_of_true ?_ fun _ => (read_uploadOf isPositive).mp ⟨capacity, isRead⟩
        change settings.HasSections
        rw [HasSections, isDocument]
        exact sections

/-! ## Files -/

/-- No scalar of a text is without a value, or that is reported as a failure of the
configuration. -/
def HasValues (text : String) : Prop :=
  ∀ failure, Yaml.read (String.ofList (Text.unifyLineEnds text.toList)) =
    .error (.scalar failure) → failure.isConfiguration = true

theorem documentOf_cases (path : Path) (text : String) :
    (HasValues text ∧ ∃ document, documentOf path text = .ok document) ∨
    (HasValues text ∧ ∃ error, documentOf path text = .error (.configuration error)) ∨
    ∃ failure, documentOf path text = .error failure ∧
      (HasValues text ↔ failure.isConfiguration = true) := by
  unfold documentOf HasValues
  cases Yaml.read (String.ofList (Text.unifyLineEnds text.toList)) with
  | error fault =>
      cases fault with
      | malformed => exact .inr (.inl ⟨fun _ impossible => (nomatch impossible), _, rfl⟩)
      | scalar failure =>
          refine .inr (.inr ⟨failure, rfl, fun isValued => isValued failure rfl, ?_⟩)
          rintro isConfiguration _ ⟨⟩
          exact isConfiguration
  | ok document =>
      have isValued : ∀ failure, (Except.ok document : Except Yaml.Fault Value) =
          .error (.scalar failure) → failure.isConfiguration = true :=
        fun _ impossible => nomatch impossible
      cases document with
      | null => exact .inl ⟨isValued, _, rfl⟩
      | mapping entries => exact .inl ⟨isValued, _, rfl⟩
      | _ => exact .inr (.inl ⟨isValued, _, rfl⟩)

theorem isSurfaced_ofFile_iff (locations : Locations) {files : Files} {path : Path}
    (checked : path.check = .ok ())
    (readable : ∀ text document, files.read path = .ok text →
      documentOf path text = .ok document → IsReadable document) :
    IsSurfaced (ofFile locations files path) ↔ ∀ text, files.read path = .ok text →
      HasValues text ∧ ∀ document, documentOf path text = .ok document →
        HasWholeUpload locations document := by
  unfold ofFile
  rw [checked, Result.ok_bind]
  cases isRead : files.read path with
  | error error => exact iff_of_true rfl fun _ impossible => nomatch impossible
  | ok text =>
      dsimp only
      have only {holds : String → Prop} : (∀ other,
          (Except.ok text : Except SystemError String) = .ok other → holds other) ↔ holds text :=
        ⟨fun each => each text rfl, fun isHeld _ same => Except.ok.inj same ▸ isHeld⟩
      rw [only]
      rcases documentOf_cases path text with
        ⟨isValued, document, isDocument⟩ | ⟨isValued, error, isError⟩ | ⟨failure, isFailure, isValued⟩
      · rw [isDocument, Result.ok_bind,
          isSurfaced_ofDocument_iff locations (readable text document isRead isDocument)]
        refine ⟨fun whole => ⟨isValued, ?_⟩, fun holds => holds.2 document rfl⟩
        rintro _ ⟨⟩
        exact whole
      · rw [isError]
        exact iff_of_true rfl ⟨isValued, fun _ impossible => nomatch impossible⟩
      · rw [isFailure, isValued]
        exact ⟨fun surfaced => ⟨surfaced, fun _ impossible => nomatch impossible⟩, And.left⟩

/-- Malformed configurations surface as such, whether they are documents or files, if and only
if no scalar of a file is without a value, and the upload rate of what is otherwise well
formed is written as a whole number. -/
theorem isSurfaced_iff (locations : Locations) :
    (∀ document source, IsReadable document →
      (IsSurfaced (ofDocument locations document source) ↔ HasWholeUpload locations document)) ∧
    ∀ files path, path.check = .ok () →
      (∀ text document, files.read path = .ok text → documentOf path text = .ok document →
        IsReadable document) →
      (IsSurfaced (ofFile locations files path) ↔ ∀ text, files.read path = .ok text →
        HasValues text ∧ ∀ document, documentOf path text = .ok document →
          HasWholeUpload locations document) :=
  ⟨fun _ source readable => isSurfaced_ofDocument_iff locations readable source,
    fun _ _ checked readable => isSurfaced_ofFile_iff locations checked readable⟩

/-- Whether a document is readable, with an upload rate that is a whole number. -/
def isWell (locations : Locations) (document : Value) : Bool :=
  document.isPlain && document.hasDistinctKeys &&
    uploadOf (Value.merge (Configuration.builtIn locations) document) matches .number (.whole _)

theorem of_isWell {locations : Locations} {document : Value}
    (well : isWell locations document = true) :
    IsReadable document ∧ HasWholeUpload locations document := by
  simp only [isWell, Bool.and_eq_true] at well
  rcases well with ⟨⟨plain, distinct⟩, whole⟩
  refine ⟨⟨plain, distinct⟩, fun _ => ?_⟩
  split at whole
  case h_1 rate isWhole => exact ⟨rate, isWhole⟩
  case h_2 => cases whole

def documentPath : Path := ⟨"", ["qos.yaml"]⟩

def filesWith (text : String) : Files := ⟨[(documentPath.components, .file text)]⟩

/-- A round trip as a document says it, and as a file does. -/
theorem isSurfaced_of_roundTrip :
    IsSurfaced (ofDocument .system (.record [("rtt_ms", .whole 40)]) none) ∧
      IsSurfaced (ofFile .system (filesWith "rtt_ms: 40\n") documentPath) := by
  have well : isWell .system (.record [("rtt_ms", .whole 40)]) = true := by decide +kernel
  have fileWell : (match documentOf documentPath "rtt_ms: 40\n" with
      | .ok document => isWell .system document
      | .error _ => false) = true := by
    decide +kernel
  cases isDocument : documentOf documentPath "rtt_ms: 40\n" with
  | error failure =>
      rw [isDocument] at fileWell
      cases fileWell
  | ok document =>
      rw [isDocument] at fileWell
      have isRead : (filesWith "rtt_ms: 40\n").read documentPath = .ok "rtt_ms: 40\n" := rfl
      have isValued : HasValues "rtt_ms: 40\n" := by
        rcases documentOf_cases documentPath "rtt_ms: 40\n" with
          ⟨isValued, _⟩ | ⟨isValued, _⟩ | ⟨failure, fails, _⟩
        · exact isValued
        · exact isValued
        · cases isDocument.symm.trans fails
      refine ⟨((isSurfaced_iff .system).1 _ none (of_isWell well).1).mpr (of_isWell well).2,
        ((isSurfaced_iff .system).2 (filesWith "rtt_ms: 40\n") documentPath rfl ?_).mpr ?_⟩
      · intro text other isText isOther
        cases isRead.symm.trans isText
        cases isDocument.symm.trans isOther
        exact (of_isWell fileWell).1
      · intro text isText
        cases isRead.symm.trans isText
        refine ⟨isValued, fun other isOther => ?_⟩
        cases isDocument.symm.trans isOther
        exact (of_isWell fileWell).2

/-- Whether a result is a failure that is not reported as one of the configuration. -/
def escapes (result : Except Failure Settings) : Bool :=
  match result with
  | .ok _ => false
  | .error failure => !failure.isConfiguration

theorem not_isSurfaced_of_escapes {result : Except Failure Settings}
    (escapes : escapes result = true) : ¬ IsSurfaced result := by
  cases result with
  | ok settings => cases escapes
  | error failure =>
      intro surfaced
      have isConfiguration : failure.isConfiguration = true := surfaced
      simp only [Settings.escapes, isConfiguration] at escapes
      cases escapes

/-- An upload rate with a fraction in a document, and a date in a file that there never was. -/
theorem not_isSurfaced_of_fraction_of_date :
    ¬ IsSurfaced (ofDocument .system (.record [("bandwidth",
        .record [("upload_kbps", .number (.real (.finite 1000)))])]) none) ∧
      ¬ IsSurfaced (ofFile .system (filesWith "rtt_ms: 2001-02-30\n") documentPath) :=
  ⟨not_isSurfaced_of_escapes (by decide +kernel), not_isSurfaced_of_escapes (by decide +kernel)⟩

end Settings

end UplinkShaper
