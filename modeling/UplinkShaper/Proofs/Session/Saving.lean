import UplinkShaper.Proofs.Session.Locks

/-!
Saving what was applied. A document is written beside its target and moved there, which
takes no lock that anyone holds on a lock file, and nobody gets a lock by it.
-/

namespace UplinkShaper

/-- The name of a document that is being written ends as its ending does. -/
theorem Session.unfinished_ne (name : String) {other : String}
    (different : other.toList.getLast? ≠ some 'p') : name ++ unfinishedEnding ≠ other := by
  rintro rfl
  rw [String.toList_append, List.getLast?_append] at different
  exact different rfl

/-- A lock on one of the two files that are made for locks. -/
def FileLock.IsNamed (lock : FileLock) : Prop :=
  ∃ directory : List String,
    lock.place = directory ++ ["reconfigure.lock"] ∨ lock.place = directory ++ ["read.lock"]

/-- An operation that takes no locks while all locks are on lock files. -/
def ShrinksLocks (operation : HostOperation α) : Prop :=
  ∀ host : Host, (∀ lock ∈ host.locks, lock.IsNamed) →
    operation.Keeps .loose host fun host' _ => ∀ lock ∈ host'.locks, lock ∈ host.locks

namespace ShrinksLocks

theorem bind {first : HostOperation α} {next : α → HostOperation β}
    (shrinks : ShrinksLocks first) (nextShrinks : ∀ value, ShrinksLocks (next value)) :
    ShrinksLocks (first >>= next) := by
  intro host named
  apply (shrinks host named).bind
  · intro host' value fewer
    apply (nextShrinks value host' fun lock isHeld => named lock (fewer lock isHeld)).weaken
    exact fun _ _ fewerYet lock isHeld => fewer lock (fewerYet lock isHeld)
  · exact fun _ _ fewer => fewer

theorem tryCatch {body : HostOperation α} {handle : Failure → HostOperation α}
    (shrinks : ShrinksLocks body) (handleShrinks : ∀ failure, ShrinksLocks (handle failure)) :
    ShrinksLocks (MonadExcept.tryCatch body handle) := by
  intro host named
  apply (shrinks host named).tryCatch
  · exact fun _ _ fewer => fewer
  · intro host' failure fewer
    apply (handleShrinks failure host' fun lock isHeld => named lock (fewer lock isHeld)).weaken
    exact fun _ _ fewerYet lock isHeld => fewer lock (fewerYet lock isHeld)

theorem ofResult (result : Except Failure α) :
    ShrinksLocks (Operation.ofResult result : HostOperation α) :=
  fun _ _ _ isHeld => isHeld

theorem get : ShrinksLocks (MonadState.get : HostOperation Host) :=
  fun _ _ _ isHeld => isHeld

theorem session (id : SessionId) : ShrinksLocks (Host.session id) := by
  refine get.bind fun host => ?_
  cases host.sessions[id]? with
  | none => exact ofResult _
  | some session => exact ofResult _

theorem recordAll (records : List LogRecord) : ShrinksLocks (Host.recordAll records) := by
  intro host _ lock isHeld
  rcases Host.exists_foldl_logged records host with ⟨log, logged⟩
  change lock ∈ (records.foldl Host.logged host).locks at isHeld
  rw [logged] at isHeld
  exact isHeld

theorem makeDirectories (path : Path) : ShrinksLocks (Host.makeDirectories path) := by
  intro host _
  rcases Host.exists_makeDirectories host path with ⟨made, result, done, _⟩
  change (Host.makeDirectories path host).Keeps .loose _
  rw [done]
  exact fun _ isHeld => isHeld

theorem changeFiles (path : Path) (change : Files → Except SystemError Files) :
    ShrinksLocks (Host.changeFiles path change) := by
  intro host _
  change (Host.changeFiles path change host).Keeps .loose _
  rcases Host.exists_changeFiles host path change with ⟨_, done, _⟩ | ⟨_, done, _⟩
  · rw [done]
    exact fun _ isHeld => isHeld
  · rw [done]
    exact fun _ isHeld => isHeld

/-- A file that is no lock file takes no lock along. -/
theorem moveFile {source target : Path}
    (isOther : ∀ lock : FileLock, lock.IsNamed → lock.place ≠ source.place) :
    ShrinksLocks (Host.moveFile source target) := by
  refine get.bind fun before => (changeFiles _ _).bind fun _ => ?_
  cases leads : before.files.placeOf source with
  | error fault => exact ofResult _
  | ok origin =>
      cases before.files.placeOf target with
      | error fault => exact ofResult _
      | ok place =>
          intro host named lock isHeld
          cases Files.place_of_placeOf leads
          change lock ∈ Host.movedLocks source.place place host.locks at isHeld
          unfold Host.movedLocks at isHeld
          split at isHeld
          · exact isHeld
          · rcases List.mem_map.mp isHeld with ⟨kept, isKept, same⟩
            have isOld := (List.mem_filter.mp isKept).1
            rw [if_neg (isOther kept (named kept isOld))] at same
            exact same ▸ isOld

/-- A document that is being written does not have the name of a lock file. -/
theorem place_ne_unfinished (path : Path) (name : String) (lock : FileLock)
    (named : lock.IsNamed) :
    lock.place ≠ (path.child (name ++ Session.unfinishedEnding)).place := by
  rw [Path.place_child (Session.unfinished_ne name (by decide))]
  intro same
  rcases named with ⟨directory, isWriter | isReader⟩
  · rw [isWriter] at same
    have names := (List.append_inj' same rfl).2
    exact Session.unfinished_ne name (by decide) (List.singleton_inj.mp names).symm
  · rw [isReader] at same
    have names := (List.append_inj' same rfl).2
    exact Session.unfinished_ne name (by decide) (List.singleton_inj.mp names).symm

theorem writeDocument (path : Path) (document : Value) :
    ShrinksLocks (Session.writeDocument path document) := by
  refine (makeDirectories _).bind fun _ => ?_
  cases last : path.components.getLast? with
  | none =>
      have nameless : path.withEnding Session.unfinishedEnding =
          .error (.invalid (.emptyName path.text)) := by
        rw [Path.withEnding, last]
      rw [nameless]
      exact ofResult (.error (.invalid (.emptyName path.text)))
  | some name =>
      have beside : path.withEnding Session.unfinishedEnding =
          .ok (path.parent.child (Path.stem name ++ Session.unfinishedEnding)) := by
        rw [Path.withEnding, last]
      rw [beside]
      have written : ShrinksLocks (do
          Host.writeContent (path.parent.child (Path.stem name ++ Session.unfinishedEnding))
            (Json.indented document)
          Host.moveFile (path.parent.child (Path.stem name ++ Session.unfinishedEnding)) path) :=
        (changeFiles _ _).bind fun _ => moveFile (place_ne_unfinished _ _)
      exact fun host named => written host named

theorem describe (id : SessionId) : ShrinksLocks (Session.describe id) := by
  refine (session id).bind fun known => ?_
  cases known.applied with
  | some applied => exact ofResult _
  | none =>
      refine bind ?_ fun _ => ofResult _
      exact (session id).bind fun _ => (session id).bind fun _ => (recordAll _).bind fun _ =>
        ofResult _

theorem persist (id : SessionId) : ShrinksLocks (Session.persist id) := by
  have saves : ShrinksLocks (Session.save id none false) :=
    (describe id).bind fun _ => get.bind fun _ => (session id).bind fun _ =>
      (writeDocument _ _).bind fun _ => (recordAll [_]).bind fun _ => ofResult _
  refine tryCatch (saves.bind fun _ => ofResult _) fun failure => ?_
  cases failure with
  | system error => exact recordAll [_]
  | _ => exact ofResult _

theorem conclude (id : SessionId) (target : Option Session.Target) :
    ShrinksLocks (Session.conclude id target) := by
  cases target with
  | none => exact (session id).bind fun _ => recordAll [_]
  | some target => exact persist id

end ShrinksLocks

end UplinkShaper
