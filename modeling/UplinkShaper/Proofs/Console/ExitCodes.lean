import UplinkShaper.Proofs.Console.Applying
import UplinkShaper.Proofs.Console.Invocations

/-!
What the exit code says. A command that applies settings exits with zero exactly where it was
allowed to, found what it needs, carried out a whole attempt and saw every fatal check satisfied
afterwards. Where it lacks something it exits with one, and has asked for nothing but links.
-/

namespace UplinkShaper

open Operation

namespace Console

open Session

variable {host : Host} {invocation : Invocation} {settings : Settings} {words : List String}
  {exchanges : List Exchange} {polls : Nat}

/-! ## Success -/

/-- A command that applies settings did everything it is for. -/
structure Succeeds (invocation : Invocation) (host : Host) (settings : Settings)
    (compiled : Compiled) (exchanges : List Exchange) : Prop where
  loads : settingsOn invocation host = .ok settings
  isPrivileged : host.isPrivileged = true
  hasTools : missingTools host settings = []
  compiles : Compiled.ofSettings settings settings.roundTrip = .ok compiled
  areHandled : AreHandled exchanges
  /-- The links are found, an attempt is the last thing that changes anything, and what is listed
  after it satisfies the fatal checks. -/
  parts : ∃ links applying reads, exchanges = links ++ applying ++ reads ∧
    List.Forall₂ (FindsLink settings) (devicesOf settings) links ∧
    Applies settings compiled applying ∧
    List.Forall₂ (Check.AsksFor settings) (checksOf compiled.tree compiled.rules) reads ∧
    List.Forall₂ Check.IsPassed (checksOf compiled.tree compiled.rules) reads

/-- Something that a command needs is not there. -/
inductive IsUnmet (invocation : Invocation) (host : Host) (exchanges : List Exchange) : Prop
  | settings {failure : Failure} : settingsOn invocation host = .error failure →
      IsUnmet invocation host exchanges
  | privileges : host.isPrivileged = false → IsUnmet invocation host exchanges
  | tools {settings : Settings} : settingsOn invocation host = .ok settings →
      missingTools host settings ≠ [] → IsUnmet invocation host exchanges
  | device {settings : Settings} {device : String} {code : Int} {output errors : Option String} :
      settingsOn invocation host = .ok settings → code ≠ 0 →
      ⟨linkQuestion settings device, .finished code output errors⟩ ∈ exchanges →
      IsUnmet invocation host exchanges

/-- Something is listed in a success. -/
theorem Succeeds.exists_isListing {compiled : Compiled}
    (succeeds : Succeeds invocation host settings compiled exchanges) :
    ∃ exchange ∈ exchanges, isListing exchange.words = true := by
  rcases succeeds.parts with ⟨links, applying, reads, rfl, _, _, asked, _⟩
  cases asked with
  | @cons _ exchange _ _ first _ =>
      refine ⟨exchange, ?_, isListing_of_listing first⟩
      exact List.mem_append_right _ (List.mem_cons_self ..)

namespace IsInvoked

variable {result : Except Failure Nat}

/-- What becomes of a command that applies settings once it is performed. -/
theorem isConcluded {level : LogLevel} {log : List LogRecord} {labels : Labels} {host' : Host}
    (applies : isApplying invocation.command = true)
    (loads : settingsOn invocation host = .ok settings)
    (told : (perform polls invocation.command host.sessions.length
      (made host settings level log labels)).Says exchanges host' result)
    (handled : AreHandled exchanges) : IsConcluded settings exchanges result := by
  rcases Settings.of_load loads with ⟨⟨document, source, accepted⟩, stays⟩
  exact tells_perform applies polls (getElem?_made ..) (isFor_fresh settings .made labels)
    accepted stays _ _ _ told handled

theorem exitCode_le (applies : isApplying invocation.command = true)
    (invoked : IsInvoked polls invocation host exchanges result) :
    Relay.exitCode (endingOf result) ≤ 1 := by
  cases invoked with
  | performed allows _ _ told =>
      rcases (issues_perform applies polls _ _).areHandled_or told with
        handled | ⟨interruption, rfl⟩
      · cases isConcluded applies allows.loads told handled with
        | failed _ => exact (exitCode_endingOf_error _).le
        | @tested _ _ _ isPassed _ _ _ _ => cases isPassed <;> decide
      · exact (exitCode_endingOf_error _).le
  | _ => exact (exitCode_endingOf_error _).le

theorem exists_succeeds (applies : isApplying invocation.command = true)
    (invoked : IsInvoked polls invocation host exchanges result)
    (isZero : Relay.exitCode (endingOf result) = 0) :
    ∃ settings compiled, Succeeds invocation host settings compiled exchanges := by
  cases invoked with
  | @performed settings links exchanges _ _ _ _ _ allows finds _ told =>
      rcases (issues_perform applies polls _ _).areHandled_or told with
        handled | ⟨interruption, rfl⟩
      case inr =>
        rw [exitCode_endingOf_error] at isZero
        cases isZero
      cases isConcluded applies allows.loads told handled with
      | failed _ =>
          rw [exitCode_endingOf_error] at isZero
          cases isZero
      | @tested compiled applying reads isPassed compiles applied asked passed =>
          cases isPassed with
          | false => cases isZero
          | true =>
              cases finds.isChecked applies with
              | met hasTools found =>
                  have isPrivileged := allows.isPermitted (isPrivileged_of_isApplying applies)
                  have handledAll := areHandled_append.mpr ⟨areHandled_links found, handled⟩
                  refine ⟨settings, compiled, allows.loads, isPrivileged, hasTools, compiles,
                    handledAll, links, applying, reads, ?_, found, applied, asked, passed.mp rfl⟩
                  exact (List.append_assoc ..).symm
  | _ =>
      rw [exitCode_endingOf_error] at isZero
      cases isZero

theorem exitCode_of_succeeds {compiled : Compiled}
    (applies : isApplying invocation.command = true)
    (invoked : IsInvoked polls invocation host exchanges result)
    (succeeds : Succeeds invocation host settings compiled exchanges) :
    Relay.exitCode (endingOf result) = 0 := by
  rcases succeeds.exists_isListing with ⟨exchange, among, isListing⟩
  have notLink {links : List Exchange} {found : Except Failure Unit} {other : Settings}
      (isChecked : IsChecked (missingTools host other) other links found)
      (isLink : exchange ∈ links) : False := by
    rw [(isChecked.areLinks exchange isLink).isListing_eq] at isListing
    cases isListing
  cases invoked with
  | unread fails =>
      rw [succeeds.loads] at fails
      cases fails
  | unprivileged _ _ lacks =>
      rw [succeeds.isPrivileged] at lacks
      cases lacks
  | unmet _ _ isChecked => exact (notLink isChecked among).elim
  | unmade _ finds _ _ => exact (notLink (finds.isChecked applies) among).elim
  | @performed other links exchanges _ _ _ _ _ allows finds _ told =>
      have loads := allows.loads
      rw [succeeds.loads] at loads
      cases loads
      cases isConcluded applies allows.loads told (areHandled_append.mp succeeds.areHandled).2 with
      | failed none =>
          rcases List.mem_append.mp among with early | later
          · exact (notLink (finds.isChecked applies) early).elim
          · rw [none exchange later] at isListing
            cases isListing
      | @tested compiledToo applying reads isPassed compiles _ asked passed =>
          rw [succeeds.compiles] at compiles
          cases compiles
          -- As many checks are made in both, so that what they listed is the same.
          rcases succeeds.parts with ⟨_, _, readsToo, same, _, _, askedToo, passedToo⟩
          rw [← List.append_assoc] at same
          have sameReads : reads = readsToo := List.append_inj_right' same
            (asked.length_eq.symm.trans askedToo.length_eq)
          rw [sameReads] at passed
          rw [passed.mpr passedToo]
          rfl

theorem of_isUnmet (applies : isApplying invocation.command = true)
    (invoked : IsInvoked polls invocation host exchanges result)
    (isUnmet : IsUnmet invocation host exchanges) :
    Relay.exitCode (endingOf result) = 1 ∧ ∀ exchange ∈ exchanges,
      ∃ settings, settingsOn invocation host = .ok settings ∧ AsksForLink settings exchange := by
  cases invoked with
  | unread _ => exact ⟨exitCode_endingOf_error _, List.forall_mem_nil _⟩
  | unprivileged _ _ _ => exact ⟨exitCode_endingOf_error _, List.forall_mem_nil _⟩
  | unmet allows _ isChecked =>
      exact ⟨exitCode_endingOf_error _, fun exchange among =>
        ⟨_, allows.loads, isChecked.areLinks exchange among⟩⟩
  | unmade allows finds _ _ =>
      exact ⟨exitCode_endingOf_error _, fun exchange among =>
        ⟨_, allows.loads, (finds.isChecked applies).areLinks exchange among⟩⟩
  | performed allows finds _ told =>
      exfalso
      have isChecked := finds.isChecked applies
      cases isUnmet with
      | settings fails =>
          rw [allows.loads] at fails
          cases fails
      | privileges lacks =>
          rw [allows.isPermitted (isPrivileged_of_isApplying applies)] at lacks
          cases lacks
      | tools loads lacks =>
          rw [allows.loads] at loads
          cases loads
          cases isChecked with
          | met hasTools _ => exact lacks hasTools
      | @device _ device code output errors loads isNonzero among =>
          rw [allows.loads] at loads
          cases loads
          rcases List.mem_append.mp among with early | later
          · have fails : foundLink device (.finished code output errors) =
                .error (.precondition (.device device)) := by
              simp only [foundLink]
            cases isChecked.result_eq fails early
          · exact not_asksNoLink _ device
              ((issues_perform applies polls _ _).areAllowed told _ later)

end IsInvoked

end Console

end UplinkShaper
