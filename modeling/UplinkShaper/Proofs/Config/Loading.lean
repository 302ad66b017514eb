import UplinkShaper.Config.Source
import UplinkShaper.Proofs.Results

/-!
Settings that were loaded. They know the file they come from, and reading that file again gives
them again.
-/

namespace UplinkShaper

namespace Settings

variable {locations : Locations} {files : Files} {document : Value} {source : Option Path}
  {path : Path} {settings : Settings}

theorem source_of_ofDocument (accepted : ofDocument locations document source = .ok settings) :
    settings.source = source := by
  rcases Result.bind_eq_ok.mp accepted with ⟨_, _, read⟩
  rcases Result.bind_eq_ok.mp read with ⟨_, _, read⟩
  rcases Result.bind_eq_ok.mp read with ⟨_, _, read⟩
  rcases Result.bind_eq_ok.mp read with ⟨_, _, read⟩
  rcases Result.bind_eq_ok.mp read with ⟨_, _, read⟩
  rw [← Result.pure_eq_ok.mp read]

theorem exists_document_of_ofFile (read : ofFile locations files path = .ok settings) :
    ∃ document, ofDocument locations document (some path) = .ok settings := by
  rcases Result.bind_eq_ok.mp read with ⟨_, _, read⟩
  split at read
  case h_1 => cases read
  case h_2 text _ =>
    rcases Result.bind_eq_ok.mp read with ⟨document, _, accepted⟩
    exact ⟨document, accepted⟩

/-- Settings that are loaded come from a document, and from their file where they have one. -/
theorem of_load {context : ConfigurationContext} {given : Option String}
    (loads : load context given = .ok settings) :
    (∃ document source, ofDocument context.locations document source = .ok settings) ∧
      ∀ path ∈ settings.source, ofFile context.locations context.files path = .ok settings := by
  have of_file {path : Path}
      (read : ofFile context.locations context.files path = .ok settings) :
      (∃ document source, ofDocument context.locations document source = .ok settings) ∧
        ∀ path ∈ settings.source, ofFile context.locations context.files path = .ok settings := by
    rcases exists_document_of_ofFile read with ⟨document, accepted⟩
    refine ⟨⟨document, some path, accepted⟩, fun other isSource => ?_⟩
    rw [source_of_ofDocument accepted] at isSource
    cases isSource
    exact read
  unfold load at loads
  dsimp only at loads
  split at loads
  · exact of_file loads
  · exact of_file loads
  · split at loads
    · exact of_file loads
    · refine ⟨⟨_, none, loads⟩, fun path isSource => ?_⟩
      rw [source_of_ofDocument loads] at isSource
      cases isSource

end Settings

end UplinkShaper
