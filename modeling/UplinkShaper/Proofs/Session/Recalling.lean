import UplinkShaper.Proofs.Config.Files
import UplinkShaper.Proofs.Session.Describing
import UplinkShaper.Proofs.Session.Reports
import UplinkShaper.Proofs.Session.Writing

/-!
What is saved of a session can be loaded again. The document is what describes the session, with
the listings that were heard; it is there as a whole or not at all, and the session and other
files are left alone.
-/

namespace UplinkShaper

open Operation

/-- What is saved of a listing, null where the command for it failed. -/
def Exchange.saved (exchange : Exchange) : Value :=
  match exchange.failure?, exchange.reply with
  | none, .finished _ output _ => .text (output.getD "")
  | _, _ => .null

namespace Session

open Host

variable {host : Host} {id : SessionId} {session : Session} {what : String} {words : List String}
  {hasListings : Bool}

/-! ## Listings -/

/-- What is saved of a listing that was read or could not be. -/
def savedAs (what : String) : Except Failure String → Except Failure (String × Value)
  | .ok listing => .ok (what, .text listing)
  | .error (.listing _) => .ok (what, .null)
  | .error failure => .error failure

theorem savedAs_listed {exchange : Exchange} {entry : String × Value}
    (isSaved : savedAs what exchange.listed = .ok entry) :
    exchange.reply.isHandled = true ∧ entry = (what, exchange.saved) := by
  rcases exchange with ⟨words, reply⟩
  cases reply with
  | finished code output errors =>
      by_cases isZero : code = 0
      · subst isZero
        cases isSaved
        exact ⟨rfl, rfl⟩
      · have failed : (⟨words, .finished code output errors⟩ : Exchange).listed =
            .error (.listing ⟨words, code, errors.getD ""⟩) := by
          simp [Exchange.listed, Completion.ofReply, Completion.isSuccess, isZero, bind,
            Except.bind, Completion.failure]
          rfl
        rw [failed] at isSaved
        cases isSaved
        refine ⟨rfl, ?_⟩
        simp [Exchange.saved, Exchange.failure?, isZero]
  | refused text =>
      cases isSaved
      exact ⟨rfl, rfl⟩
  | interrupted interruption =>
      cases interruption with
      | subprocess text | timeout text =>
          cases isSaved
          exact ⟨rfl, rfl⟩
      | runtime text | keyboard => cases isSaved

theorem savedListing_eq (id : SessionId) (what : String) :
    savedListing id what = (read id what).andThen fun found host =>
      .done (match found with
        | .error (.listing failure) => host.logged
            (.warning s!"Could not read {what} for saving: {failure.listingMessage}")
        | _ => host) (savedAs what found) := by
  refine andThen_three fun found => ?_
  cases found with
  | ok listing => rfl
  | error failure => cases failure <;> rfl

/-- A listing is saved by what is heard of it, unless nothing is. -/
theorem tells_savedListing (known : host.sessions[id]? = some session)
    (isWords : session.backends.listing what = .ok words) :
    (savedListing id what).Tells host fun exchanges host' result =>
      host.IsLike host' ∧ ∀ entry, result = .ok entry →
        ∃ exchange : Exchange, exchanges = [exchange] ∧ exchange.words = words ∧
          exchange.reply.isHandled = true ∧ entry = (what, exchange.saved) := by
  rw [savedListing_eq]
  cases checked : session.readerLock.check with
  | error failure =>
      have isOther : savedAs what (.error failure) = .error failure := by
        unfold Path.check at checked
        split at checked
        · cases checked
          rfl
        · cases checked
      refine tells_andThen.mpr ((tells_of_done (read_eq_error known checked what)).mpr ?_)
      refine (tells_of_done rfl).mpr ⟨?_, fun entry isSaved => ?_⟩
      · split
        · exact host.isLike_logged _
        · exact .refl host
      · rw [isOther] at isSaved
        cases isSaved
  | ok value =>
      refine tells_andThen.mpr ((tells_read known checked isWords).weaken ?_)
      rintro _ host₁ _ ⟨reply, rfl, isLike, rfl⟩
      refine (tells_of_done rfl).mpr ⟨?_, fun entry isSaved => ?_⟩
      · split
        · exact isLike.trans (host₁.isLike_logged _)
        · exact isLike
      · rcases savedAs_listed isSaved with ⟨isHandled, same⟩
        exact ⟨⟨words, reply⟩, rfl, rfl, isHandled, same⟩

/-- Listings are asked for in their order. -/
def AsksFor (session : Session) (listings : List String) (exchanges : List Exchange) : Prop :=
  List.Forall₂ (fun what exchange => session.backends.listing what = .ok exchange.words) listings
    exchanges

/-- What is saved of listings that were asked for. -/
def entriesOf (listings : List String) (exchanges : List Exchange) : List (String × Value) :=
  List.zipWith (fun what exchange => (what, exchange.saved)) listings exchanges

theorem tells_mapM_savedListing {listings : List String}
    (known : host.sessions[id]? = some session)
    (haveWords : ∀ what ∈ listings, ∃ words, session.backends.listing what = .ok words) :
    (listings.mapM (savedListing id)).Tells host fun exchanges host' result =>
      host.IsLike host' ∧ ∀ entries, result = .ok entries →
        session.AsksFor listings exchanges ∧ AreHandled exchanges ∧
          entries = entriesOf listings exchanges := by
  induction listings generalizing host with
  | nil =>
      refine (tells_of_done rfl).mpr ⟨.refl host, ?_⟩
      rintro _ ⟨⟩
      exact ⟨.nil, List.forall_mem_nil _, rfl⟩
  | cons what rest induction =>
      rcases List.forall_mem_cons.mp haveWords with ⟨⟨words, isWords⟩, others⟩
      rw [List.mapM_cons]
      refine (tells_savedListing known isWords).bind ?_ ?_
      · rintro _ host₁ _ ⟨isLike, isSaved⟩
        rcases isSaved _ rfl with ⟨exchange, rfl, rfl, isHandled, rfl⟩
        refine (induction (isLike.getElem?_sessions known) others).bind ?_ ?_
        · rintro exchanges host₂ entries ⟨isLikeToo, areSaved⟩
          rcases areSaved entries rfl with ⟨asked, handled, rfl⟩
          refine (tells_of_done rfl).mpr ⟨isLike.trans isLikeToo, ?_⟩
          rintro _ ⟨⟩
          rw [List.append_nil]
          exact ⟨.cons isWords asked, List.forall_mem_cons.mpr ⟨isHandled, handled⟩, rfl⟩
        · rintro exchanges host₂ failure ⟨isLikeToo, _⟩
          exact ⟨isLike.trans isLikeToo, nofun⟩
      · rintro _ host₁ failure ⟨isLike, _⟩
        exact ⟨isLike, nofun⟩

theorem exists_words_of_savedListings (session : Session) :
    ∀ what ∈ savedListings, ∃ words, session.backends.listing what = .ok words := by
  simp only [savedListings, List.forall_mem_cons]
  exact ⟨⟨_, rfl⟩, ⟨_, rfl⟩, ⟨_, rfl⟩, ⟨_, rfl⟩, List.forall_mem_nil _⟩

theorem isDocument_entriesOf {listings : List String} (distinct : listings.Nodup)
    (exchanges : List Exchange) : (Value.record (entriesOf listings exchanges)).IsDocument := by
  have keys : ((entriesOf listings exchanges).map Prod.fst).Sublist listings := by
    rw [entriesOf, List.map_zipWith]
    clear distinct
    induction listings generalizing exchanges with
    | nil => exact .slnil
    | cons what rest induction =>
        cases exchanges with
        | nil => exact List.nil_sublist _
        | cons exchange others => exact (induction others).cons_cons what
  have saved (exchange : Exchange) : exchange.saved.IsDocument := by
    unfold Exchange.saved
    split
    · exact .text _
    · exact .null
  refine .record (distinct.sublist keys) fun field member => ?_
  rw [entriesOf, ← List.map_uncurry_zip_eq_zipWith] at member
  rcases List.mem_map.mp member with ⟨⟨what, exchange⟩, _, rfl⟩
  exact saved exchange

/-- The listings that are saved, if any are. -/
def listingsFor (hasListings : Bool) : List String :=
  if hasListings then savedListings else []

/-- What is saved of the listings, if it was asked for. -/
def listingsOf (hasListings : Bool) (exchanges : List Exchange) : Option (List (String × Value)) :=
  if hasListings then some (entriesOf savedListings exchanges) else none

theorem isDocument_listingsOf (hasListings : Bool) (exchanges : List Exchange) :
    ∀ entries ∈ listingsOf hasListings exchanges, (Value.record entries).IsDocument := by
  cases hasListings with
  | false => nofun
  | true =>
      rintro _ ⟨⟩
      exact isDocument_entriesOf (by decide) exchanges

/-- Ask for the listings, if they are to be saved. -/
def askListings (id : SessionId) (hasListings : Bool) : HostOperation (List (String × Value)) :=
  if hasListings then do
    let entries ← savedListings.mapM (savedListing id)
    return [("backend", .record entries)]
  else return []

theorem tells_askListings (known : host.sessions[id]? = some session) (hasListings : Bool) :
    (askListings id hasListings).Tells host fun exchanges host' result =>
      host.IsLike host' ∧ ∀ fields, result = .ok fields →
        session.AsksFor (listingsFor hasListings) exchanges ∧ AreHandled exchanges ∧
          fields = listingFields (listingsOf hasListings exchanges) := by
  cases hasListings with
  | false =>
      refine (tells_of_done rfl).mpr ⟨.refl host, ?_⟩
      rintro _ ⟨⟩
      exact ⟨.nil, List.forall_mem_nil _, rfl⟩
  | true =>
      refine (tells_mapM_savedListing known (exists_words_of_savedListings session)).bind ?_ ?_
      · rintro exchanges host₁ entries ⟨isLike, areSaved⟩
        rcases areSaved entries rfl with ⟨asked, handled, rfl⟩
        refine (tells_of_done rfl).mpr ⟨isLike, ?_⟩
        rintro _ ⟨⟩
        rw [List.append_nil]
        exact ⟨asked, handled, rfl⟩
      · rintro exchanges host₁ failure ⟨isLike, _⟩
        exact ⟨isLike, nofun⟩

/-! ## Numbers of sessions -/

section

variable {ρ : Type} {runner : Runner ρ} {requested : Settings → Prop} {target : Target}

/-- A session with requested settings, that has applied only what doubles can be the numbers of. -/
structure KeepsDoubles (requested : Settings → Prop) (session : Session) : Prop where
  settings : requested session.settings
  applied : ∀ applied ∈ session.applied, applied.compiled.tree.HasDoubles

namespace KeepsDoubles

/-- Neither a reconfiguration under way nor the counters matter. -/
theorem ignores (keeps : session.KeepsDoubles requested) (isWriting : Bool)
    (latest : Option Snapshot) :
    { session with isWriting := isWriting, latest := latest }.KeepsDoubles requested :=
  ⟨keeps.settings, keeps.applied⟩

theorem cleared (keeps : session.KeepsDoubles requested) :
    session.cleared.KeepsDoubles requested :=
  ⟨keeps.settings, nofun⟩

theorem bound (keeps : session.KeepsDoubles requested) (settings : Settings) :
    (session.bound settings).KeepsDoubles requested := by
  unfold Session.bound
  split
  · exact keeps
  · exact ⟨keeps.settings, keeps.applied⟩

theorem remains {session' : Session} (keeps : session.KeepsDoubles requested)
    (isRequested : requested target.settings) (doubles : target.compiled.tree.HasDoubles)
    (left : Remains target session session') : session'.KeepsDoubles requested := by
  cases left with
  | built moment =>
      refine ⟨isRequested, ?_⟩
      rintro _ ⟨⟩
      exact doubles
  | cleared => exact keeps.cleared
  | kept => exact keeps

variable (asked : ∀ settings, requested settings → settings.treeRequest.HasDoubles)

include asked

/-- Whatever is applied was compiled from requested settings. -/
theorem ends_perform {request : Request} (keeps : session.KeepsDoubles requested)
    (isHandled : runner.IsHandled) (known : host.sessions[id]? = some session)
    (allowed : request.IsAllowed requested host session) (memory : ρ) :
    (request.perform id).Ends (recording runner) (memory, []) host fun _ host' _ =>
      ∃ session', host'.sessions[id]? = some session' ∧ session'.KeepsDoubles requested := by
  apply Request.ends_perform_left known keeps
  intro target host₁ isPrepared working
  cases target with
  | none =>
      apply (ends_carryOut_none isHandled working session memory).weaken
      rintro _ host' _ ⟨known', _⟩
      exact ⟨_, known', keeps.cleared.ignores false session.latest⟩
  | some target =>
      have isRequested := Request.requested_of_settings keeps.settings allowed
        (Request.settings_of_prepared isPrepared).1
      have compiles := Compiled.ofSettings_eq_ok_iff.mp (Request.compiles_of_prepared isPrepared)
      have doubles := (asked target.settings isRequested).of_compile compiles.1
      apply (ends_carryOut_remains isHandled working memory).weaken
      rintro _ host' _ ⟨session', known', left⟩
      have keeps' := ((keeps.ignores true session.latest).bound _).remains isRequested doubles left
      exact ⟨session', known', keeps'.ignores false session'.latest⟩

theorem ends_use {use : Use} (keeps : session.KeepsDoubles requested)
    (isHandled : runner.IsHandled) (known : host.sessions[id]? = some session)
    (allowed : use.IsAllowed requested host session) (memory : ρ) :
    (use.perform id).Ends (recording runner) (memory, []) host fun _ host' _ =>
      ∃ session', host'.sessions[id]? = some session' ∧ session'.KeepsDoubles requested := by
  rcases use.asked_or_observes id with ⟨request, rfl⟩ | observes
  · exact keeps.ends_perform asked isHandled known allowed memory
  · apply (observes ρ runner memory [] host session known).weaken
    rintro _ host' _ ⟨latest, known'⟩
    exact ⟨_, known', keeps.ignores session.isWriting latest⟩

end KeepsDoubles

/-- However a session is used, whatever its requests come to, its numbers stay ones that doubles
can be. -/
theorem IsUsed.exists_hasDoubles (used : IsUsed requested id host)
    (asked : ∀ settings, requested settings → settings.treeRequest.HasDoubles) :
    ∃ session, host.sessions[id]? = some session ∧ session.HasDoubles := by
  have keeps : ∃ session, host.sessions[id]? = some session ∧ session.KeepsDoubles requested := by
    induction used with
    | made isRequested named known => exact ⟨_, known, isRequested, nofun⟩
    | @used ρ runner memory memory' host host' session use result _ known allowed isHandled ran
        induction =>
        rcases induction with ⟨same, found, keeps⟩
        cases known.symm.trans found
        have ends := keeps.ends_use asked isHandled known allowed memory
        rw [Operation.Ends, ran] at ends
        exact ends
    | meanwhile _ same induction =>
        rcases induction with ⟨session, known, keeps⟩
        exact ⟨session, same.trans known, keeps⟩
  rcases keeps with ⟨session, known, keeps⟩
  exact ⟨session, known, asked session.settings keeps.settings, keeps.applied⟩

/-- Where all settings come from files, numbers need no condition. -/
theorem IsUsed.exists_hasDoubles_of_isLoaded (used : IsUsed Settings.IsLoaded id host) :
    ∃ session, host.sessions[id]? = some session ∧ session.HasDoubles :=
  used.exists_hasDoubles fun _ isLoaded => isLoaded.hasDoubles

end

/-! ## Saving -/

theorem save_eq_bind (id : SessionId) (target : Option Path) (hasListings : Bool) :
    save id target hasListings = (do
      let described ← describe id
      let savedAt := (← get).now
      let listings ← askListings id hasListings
      let path := target.getD (← Host.session id).settings.statePath
      writeDocument path (.record (described ++ [("saved_at", .text savedAt.text)] ++ listings))
      record (.info s!"Saved shaping state to {path.text}")
      return path) := by
  cases hasListings with
  | false => rfl
  | true => simp only [save, askListings, if_true, bind_assoc]

theorem loadSaved_eq_done {path : Path} {document : Value}
    (holds : HoldsDocument path document host.files) (isDocument : document.IsDocument) :
    loadSaved path host = .done host (.ok document) := by
  unfold loadSaved
  rw [bind_of_ok (contentAt_eq_done holds.checked host), holds.reads]
  dsimp only
  rw [Json.read?_unifyLineEnds_indented isDocument]
  rfl

/-- What is known once a session is saved: the document can be loaded, with what was heard of
the listings that were asked for, and is nowhere else. -/
structure HasSaved (host : Host) (id : SessionId) (session : Session) (path : Path)
    (hasListings : Bool) (exchanges : List Exchange) (host' : Host) : Prop where
  asked : session.AsksFor (listingsFor hasListings) exchanges
  handled : AreHandled exchanges
  loads : ∃ log described, describe id host = .done { host with log := log } (.ok described) ∧
    loadSaved path host' = .done host' (.ok
      (savedDocument described host.now (listingsOf hasListings exchanges)))
  finished : ∀ beside, path.withEnding unfinishedEnding = .ok beside →
    beside.place ≠ path.place → host'.files.entry? beside.place = none

/-- Saving is faithful and all or nothing: what was saved is there, or else what was there before,
and nothing else is touched. -/
def SavesFaithfully (host : Host) (id : SessionId) (session : Session) (target : Option Path)
    (hasListings : Bool) : Prop :=
  (save id target hasListings).Tells host fun exchanges host' result =>
    let path := target.getD session.settings.statePath
    (∀ saved, result = .ok saved →
      saved = path ∧ HasSaved host id session path hasListings exchanges host') ∧
    (∀ failure, result = .error failure → KeepsContent path host.files host'.files) ∧
    TouchesOnly path host.files host'.files ∧ host'.sessions = host.sessions

end Session

end UplinkShaper
