import UplinkShaper.Proofs.Session.Work

/-!
Operations that never read the log. Run on two hosts that differ in their logs only, they
run the same commands and end with the same result, again on hosts that differ in nothing
else.
-/

namespace UplinkShaper

/-! ## Procedures side by side -/

namespace Procedure

/-- Two procedures that run the same commands and end alike, as long as what they are given
back is alike. -/
inductive Alike (like : σ → σ → Prop) : Procedure σ α → Procedure σ α → Prop
  | done {state state' : σ} {result : Except Failure α} :
      like state state' → Alike like (.done state result) (.done state' result)
  | command {state state' : σ} {words : List String} {resume resume' : σ → Reply → Procedure σ α} :
      like state state' →
        (∀ back back' reply, like back back' →
          Alike like (resume back reply) (resume' back' reply)) →
          Alike like (.command state words resume) (.command state' words resume')

variable {like : σ → σ → Prop} {first first' : Procedure σ α}
  {next next' : σ → Except Failure α → Procedure σ β}

/-- Only results that the first procedure can have need to be followed alike. -/
theorem Alike.andThen_of_keeps {holds : Except Failure α → Prop} (alike : Alike like first first')
    (keeps : first.Keeps .loose fun _ result => holds result)
    (nextAlike : ∀ state state' result, holds result → like state state' →
      Alike like (next state result) (next' state' result)) :
    Alike like (first.andThen next) (first'.andThen next') := by
  induction alike with
  | done isLike => exact nextAlike _ _ _ keeps isLike
  | command isLike _ induction =>
      refine .command isLike fun back back' reply isLikeBack => ?_
      exact induction back back' reply isLikeBack (keeps.2 back reply trivial)

theorem Alike.andThen (alike : Alike like first first')
    (nextAlike : ∀ state state' result, like state state' →
      Alike like (next state result) (next' state' result)) :
    Alike like (first.andThen next) (first'.andThen next') := by
  induction alike with
  | done isLike => exact nextAlike _ _ _ isLike
  | command isLike _ induction => exact .command isLike induction

end Procedure

/-! ## Hosts that differ in their logs -/

namespace Host

/-- Two hosts that differ in their logs at most. -/
def IsLike (host other : Host) : Prop :=
  ∃ log, other = { host with log := log }

variable {host other : Host}

theorem IsLike.refl (host : Host) : host.IsLike host :=
  ⟨host.log, rfl⟩

theorem IsLike.symm (like : host.IsLike other) : other.IsLike host := by
  rcases like with ⟨log, rfl⟩
  exact ⟨host.log, rfl⟩

theorem IsLike.trans {third : Host} (like : host.IsLike other) (likeToo : other.IsLike third) :
    host.IsLike third := by
  rcases like with ⟨_, rfl⟩
  rcases likeToo with ⟨log, rfl⟩
  exact ⟨log, rfl⟩

/-- Alike hosts have the same sessions. -/
theorem IsLike.getElem?_sessions {id : SessionId} {session : Session} (like : host.IsLike other)
    (known : host.sessions[id]? = some session) : other.sessions[id]? = some session := by
  rcases like with ⟨_, rfl⟩
  exact known

theorem isLike_logged (host : Host) (shown : LogRecord) : host.IsLike (host.logged shown) :=
  exists_foldl_logged [shown] host

end Host

/-! ## Blind operations -/

/-- An operation that does not read the log. -/
def IsBlind (operation : HostOperation α) : Prop :=
  ∀ host other : Host, host.IsLike other →
    Procedure.Alike Host.IsLike (operation host) (operation other)

namespace IsBlind

theorem andThen {first : HostOperation α} {next : Except Failure α → HostOperation β}
    (blind : IsBlind first) (nextBlind : ∀ result, IsBlind (next result)) :
    IsBlind (first.andThen next) := fun host other like =>
  (blind host other like).andThen fun _ _ result => nextBlind result _ _

theorem ofResult (result : Except Failure α) :
    IsBlind (Operation.ofResult result : HostOperation α) :=
  fun _ _ like => .done like

theorem bind {first : HostOperation α} {next : α → HostOperation β} (blind : IsBlind first)
    (nextBlind : ∀ value, IsBlind (next value)) : IsBlind (first >>= next) := by
  refine blind.andThen fun result => ?_
  cases result with
  | ok value => exact nextBlind value
  | error failure => exact ofResult _

theorem tryCatch {body : HostOperation α} {handle : Failure → HostOperation α}
    (blind : IsBlind body) (handleBlind : ∀ failure, IsBlind (handle failure)) :
    IsBlind (MonadExcept.tryCatch body handle) := by
  refine blind.andThen fun result => ?_
  cases result with
  | ok value => exact ofResult _
  | error failure => exact handleBlind failure

theorem modify {change : Host → Host}
    (keeps : ∀ host other : Host, host.IsLike other → (change host).IsLike (change other)) :
    IsBlind (modify change : HostOperation Unit) :=
  fun host other like => .done (keeps host other like)

/-- What is read of a host may be anything but its log. -/
theorem get_bind {next : Host → HostOperation α} (blind : ∀ host, IsBlind (next host))
    (ignores : ∀ host log, next { host with log := log } = next host) :
    IsBlind (get >>= next) := by
  rintro host _ ⟨log, rfl⟩
  change Procedure.Alike _ (next host host) (next { host with log := log } _)
  rw [ignores host log]
  exact blind host _ _ ⟨log, rfl⟩

theorem recordAll (records : List LogRecord) : IsBlind (Host.recordAll records) := by
  refine modify fun host other like => ?_
  have left : host.IsLike (records.foldl Host.logged host) := Host.exists_foldl_logged _ host
  have right : other.IsLike (records.foldl Host.logged other) := Host.exists_foldl_logged _ other
  exact left.symm.trans (like.trans right)

theorem changeFiles (path : Path) (change : Files → Except SystemError Files) :
    IsBlind (Host.changeFiles path change) := by
  refine (ofResult _).bind fun _ => ?_
  rintro host _ ⟨log, rfl⟩
  simp only [Operation.get_bind_apply]
  cases change host.files with
  | ok files => exact .done ⟨log, rfl⟩
  | error error => exact .done ⟨log, rfl⟩

theorem makeDirectories (path : Path) : IsBlind (Host.makeDirectories path) := by
  refine (ofResult _).bind fun _ => ?_
  rintro host _ ⟨log, rfl⟩
  simp only [Operation.get_bind_apply, Operation.set_bind_apply]
  cases (host.files.makeDirectories path).refusal with
  | some error => exact .done ⟨log, rfl⟩
  | none => exact .done ⟨log, rfl⟩

theorem moveFile (source target : Path) : IsBlind (Host.moveFile source target) := by
  refine get_bind (fun before => (changeFiles _ _).bind fun _ => ?_) fun _ _ => rfl
  cases before.files.placeOf source with
  | error fault => exact ofResult _
  | ok origin =>
      cases before.files.placeOf target with
      | error fault => exact ofResult _
      | ok place =>
          refine modify ?_
          rintro host _ ⟨log, rfl⟩
          exact ⟨log, rfl⟩

theorem session (id : SessionId) : IsBlind (Host.session id) := by
  refine get_bind (fun host => ?_) fun _ _ => rfl
  cases host.sessions[id]? with
  | none => exact ofResult _
  | some session => exact ofResult _

theorem changeSession (id : SessionId) (change : Session → Session) :
    IsBlind (Host.changeSession id change) := by
  refine modify ?_
  rintro host _ ⟨log, rfl⟩
  exact ⟨log, rfl⟩

/-! ## Sessions -/

theorem ofWork {id : SessionId} {operation : HostOperation α} (work : IsWork id operation) :
    IsBlind operation := by
  induction work with
  | ofResult _ => exact ofResult _
  | command words => exact fun _ _ like => .command like fun _ _ _ back => .done back
  | record shown => exact recordAll [shown]
  | session => exact session id
  | changeSession _ => exact changeSession id _
  | timed _ induction => exact get_bind (fun host => induction host.now) fun _ _ => rfl
  | andThen firstWork _ induction nextInduction =>
      intro host other like
      apply (induction host other like).andThen_of_keeps (firstWork.keeps_loose host)
      exact fun _ _ result late => nextInduction result late _ _

theorem releasing {id : SessionId} {body : HostOperation α} (blind : IsBlind body) :
    IsBlind (Session.releasing id body) := by
  refine blind.andThen fun result => ?_
  rintro host _ ⟨log, rfl⟩
  exact .done ⟨log, rfl⟩

theorem describe (id : SessionId) : IsBlind (Session.describe id) := by
  refine (session id).bind fun known => ?_
  cases known.applied with
  | some applied => exact ofResult _
  | none =>
      refine bind ?_ fun _ => ofResult _
      exact (session id).bind fun _ => (session id).bind fun _ => (recordAll _).bind fun _ =>
        ofResult _

theorem save (id : SessionId) : IsBlind (Session.save id none false) := by
  have writes (path : Path) (document : Value) : IsBlind (Session.writeDocument path document) :=
    (makeDirectories _).bind fun _ => (ofResult _).bind fun _ => (changeFiles _ _).bind fun _ =>
      moveFile _ _
  refine (describe id).bind fun described => get_bind (fun host => ?_) fun _ _ => rfl
  exact (session id).bind fun _ => (writes _ _).bind fun _ => (recordAll [_]).bind fun _ =>
    ofResult _

theorem persist (id : SessionId) : IsBlind (Session.persist id) := by
  refine tryCatch ((save id).bind fun _ => ofResult _) fun failure => ?_
  cases failure with
  | system error => exact recordAll [_]
  | _ => exact ofResult _

theorem conclude (id : SessionId) (target : Option Session.Target) :
    IsBlind (Session.conclude id target) := by
  cases target with
  | none => exact (session id).bind fun _ => recordAll [_]
  | some target => exact persist id

end IsBlind

end UplinkShaper
