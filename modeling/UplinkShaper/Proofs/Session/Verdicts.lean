import UplinkShaper.Proofs.Session.Checking
import UplinkShaper.Proofs.Session.Orderly
import UplinkShaper.Proofs.Session.Overflow
import UplinkShaper.Proofs.Text.Occurrences

/-!
What a verification vouches for. When it reports the root, the classes, the filters and the marks as
found, it has heard listings in which the first three are. The marks are only searched for as a
text, which the name of the chain may hold as well as the target of a rule.
-/

namespace UplinkShaper

namespace Session

open Host Operation

/-! ## What listings show -/

/-- A chain has a rule with the target of marks, which is the third word of its line. -/
def HasMarkRule (listing : String) : Prop :=
  ∃ line ∈ Text.lines listing.toList, (Text.words line)[2]? = some "MARK".toList

instance (listing : String) : Decidable (HasMarkRule listing) :=
  inferInstanceAs (Decidable (∃ line ∈ Text.lines listing.toList, _))

/-- Listings show what settings compile to. -/
structure Shows (compiled : Compiled) (queues classes filters marks : String) : Prop where
  root : "qdisc hfsc 1:".toList <:+: queues.toList
  classes : Text.HasTimes "class hfsc".toList (compiled.tree.tiers.length + 1) classes.toList
  filters : compiled.rules.filters.length ≤ (Text.lines filters.toList).countP fun line =>
    " fw".toList <:+: line ∧ "handle".toList <:+: line
  marks : HasMarkRule marks

variable {listing : List Char}

theorem queueCheck_holds_iff :
    queueCheck.holds listing = true ↔ "qdisc hfsc 1:".toList <:+: listing :=
  Text.occursIn_iff

theorem classesCheck_holds_iff {tree : ClassTree} : (classesCheck tree).holds listing = true ↔
    Text.HasTimes "class hfsc".toList (tree.tiers.length + 1) listing :=
  decide_eq_true_iff.trans (Text.le_occurrences_iff (by decide))

theorem filtersCheck_holds_iff {rules : RuleSet} : (filtersCheck rules).holds listing = true ↔
    rules.filters.length ≤ (Text.lines listing).countP fun line =>
      " fw".toList <:+: line ∧ "handle".toList <:+: line := by
  have same (line : List Char) : isMarkFilter line =
      decide (" fw".toList <:+: line ∧ "handle".toList <:+: line) := by
    rw [Bool.eq_iff_iff, isMarkFilter, Bool.and_eq_true, Text.occursIn_iff, Text.occursIn_iff,
      decide_eq_true_iff]
  simp only [filtersCheck, decide_eq_true_eq, funext same]

theorem marksCheck_holds_iff : marksCheck.holds listing = true ↔ "MARK".toList <:+: listing :=
  Text.occursIn_iff

/-! ### Chains without rules -/

/-- How a chain without rules is listed. -/
def emptyChain (name : String) (references : Nat) : String :=
  "Chain " ++ name ++ " (" ++ toString references ++ " references)\n" ++
    " pkts bytes target     prot opt in     out     source               destination\n"

/-- A chain without rules passes for one with marks if its name is so. -/
theorem marksCheck_holds_emptyChain_iff (name : String) (references : Nat) :
    marksCheck.holds (emptyChain name references).toList = true ↔
      "MARK".toList <:+: name.toList := by
  let rest : List Char := '(' :: (Nat.toDigits 10 references ++ (" references)\n".toList ++
    " pkts bytes target     prot opt in     out     source               destination\n".toList))
  have written : (emptyChain name references).toList =
      "Chain".toList ++ ' ' :: (name.toList ++ ' ' :: rest) := by
    have digits : (toString references).toList = Nat.toDigits 10 references := Nat.toList_repr
    simp only [emptyChain, String.toList_append, List.append_assoc, digits]
    rfl
  have notBefore : ¬ "MARK".toList <:+: "Chain".toList := by decide
  have notAfter : ¬ "MARK".toList <:+: rest := by
    intro within
    have isPart : 'M' ∈ rest := within.subset (by decide)
    simp only [rest, List.mem_cons, List.mem_append] at isPart
    rcases isPart with isBracket | isDigit | isOther
    · exact absurd isBracket (by decide)
    · exact Text.not_mem_toDigits (by decide) references isDigit
    · exact absurd isOther (by decide)
  rw [marksCheck_holds_iff, written, Text.infix_append_cons_iff (by decide),
    Text.infix_append_cons_iff (by decide), or_iff_right notBefore, or_iff_left notAfter]

/-! ## What is reported -/

/-- The checks that count, by their names. -/
def fatalNames : List String := ["qdisc", "classes", "filters", "marks"]

/-- What a check of this name looks for was found. -/
def Reports (results : List CheckResult) (name : String) : Prop :=
  ∃ result ∈ results, result.name = name ∧ result.isOk = true

theorem nodup_names_checksOf (tree : ClassTree) (rules : RuleSet) :
    ((checksOf tree rules).map (·.name)).Nodup := by
  have both : (checksOf tree rules).map (·.name) = fatalNames ++ ["icmp_marks"] ∨
      (checksOf tree rules).map (·.name) = fatalNames := by
    unfold checksOf
    split
    · exact .inl rfl
    · exact .inr rfl
  rcases both with names | names
  · rw [names]
    decide
  · rw [names]
    decide

namespace Check

variable {check : Check} {heard : Except Failure String} {result : CheckResult}

theorem name_of_verdict (isVerdict : check.verdict heard = .ok result) :
    result.name = check.name := by
  unfold verdict at isVerdict
  split at isVerdict
  · cases isVerdict
    rfl
  · cases isVerdict
    rfl
  · cases isVerdict

theorem isOk_iff_of_verdict (isVerdict : check.verdict heard = .ok result) :
    result.isOk = true ↔ ∃ listing, heard = .ok listing ∧ check.holds listing.toList = true := by
  unfold verdict at isVerdict
  split at isVerdict
  · cases isVerdict
    simp
  · cases isVerdict
    simp
  · cases isVerdict

end Check

namespace AreMade

variable {backends : Backends} {checks : List Check} {exchanges : List Exchange}
  {results : List CheckResult}

theorem map_name (made : AreMade backends checks exchanges results) :
    results.map (·.name) = checks.map (·.name) := by
  induction made with
  | nil => rfl
  | cons _ isVerdict _ induction =>
      rw [List.map_cons, List.map_cons, Check.name_of_verdict isVerdict, induction]

/-- Checks of different names are reported only by themselves. -/
theorem isOk_of_reports (made : AreMade backends checks exchanges results)
    (distinct : (checks.map (·.name)).Nodup) {result : CheckResult} (member : result ∈ results)
    (reported : Reports results result.name) : result.isOk = true := by
  rcases reported with ⟨other, isOther, sameName, isOk⟩
  rw [← made.map_name] at distinct
  exact List.inj_on_of_nodup_map distinct isOther member sameName ▸ isOk

end AreMade

/-! ## What is heard -/

/-- The first exchanges ask for the listings of queues, classes, filters and marks, and these are
the replies. -/
def Hears (backends : Backends) (exchanges : List Exchange)
    (queues classes filters marks : String) : Prop :=
  List.Forall₂ (fun entry exchange =>
      backends.listing entry.1 = .ok exchange.words ∧ exchange.listed = .ok entry.2)
    [("qdisc", queues), ("class", classes), ("filter", filters), (marksListing, marks)]
    (exchanges.take 4)

theorem Hears.listed_marks {backends : Backends} {exchanges : List Exchange}
    {queues classes filters marks : String}
    (hears : Hears backends exchanges queues classes filters marks) :
    exchanges[3]?.map (·.listed) = some (.ok marks) := by
  rw [← List.getElem?_take_of_lt (by decide : 3 < 4)]
  unfold Hears at hears
  generalize exchanges.take 4 = first at hears ⊢
  rcases hears with _ | ⟨_, _ | ⟨_, _ | ⟨_, _ | ⟨⟨_, isMarks⟩, _⟩⟩⟩⟩
  exact congrArg some isMarks

/-- A session can look at its lock, and its settings compile. -/
def CanVerify (session : Session) : Prop :=
  session.readerLock.check = .ok () ∧ ∃ compiled,
    Compiled.ofSettings session.settings (session.roundTripFor session.settings) = .ok compiled

variable {host host' : Host} {id : SessionId} {session : Session} {exchanges : List Exchange}
  {results : List CheckResult}

/-- Results of a verification are those of all checks. -/
theorem says_verify (known : host.sessions[id]? = some session)
    (told : (verify id host).Says exchanges host' (.ok results)) :
    session.readerLock.check = .ok () ∧ ∃ compiled,
      Compiled.ofSettings session.settings (session.roundTripFor session.settings) = .ok compiled ∧
        AreMade session.backends (checksOf compiled.tree compiled.rules) exchanges results := by
  cases compiles : Compiled.ofSettings session.settings (session.roundTripFor session.settings) with
  | error failure =>
      rcases compile_eq known with ⟨log, done⟩
      rw [compiles] at done
      have ended : verify id host = .done _ (.error failure) := bind_of_error done
      rw [ended] at told
      cases told
  | ok compiled =>
      cases checked : session.readerLock.check with
      | error failure =>
          rcases verify_eq_error known checked compiles with ⟨_, ended⟩
          rw [ended] at told
          cases told
      | ok value =>
          rcases tells_verify_of_ok known checked compiles _ _ _ told with
            ⟨_, ⟨⟩, made⟩ | ⟨_, _, ⟨⟩⟩
          exact ⟨rfl, compiled, rfl, made⟩

/-- What is reported as found was looked for in the listings that were heard. -/
theorem exists_hears_of_reports {compiled : Compiled} {backends : Backends}
    (made : AreMade backends (checksOf compiled.tree compiled.rules) exchanges results)
    (reported : ∀ name ∈ fatalNames, Reports results name) :
    ∃ queues classes filters marks, Hears backends exchanges queues classes filters marks ∧
      queueCheck.holds queues.toList = true ∧
        (classesCheck compiled.tree).holds classes.toList = true ∧
          (filtersCheck compiled.rules).holds filters.toList = true ∧
            marksCheck.holds marks.toList = true := by
  have isOk {result : CheckResult} (member : result ∈ results) {check : Check}
      {heard : Except Failure String} (isVerdict : check.verdict heard = .ok result)
      (isFatal : check.name ∈ fatalNames) :
      ∃ listing, heard = .ok listing ∧ check.holds listing.toList = true := by
    refine (Check.isOk_iff_of_verdict isVerdict).mp ?_
    refine made.isOk_of_reports (nodup_names_checksOf _ _) member (reported _ ?_)
    rwa [Check.name_of_verdict isVerdict]
  unfold checksOf at made
  rcases made with _ | ⟨asksQueues, saysQueues, _ | ⟨asksClasses, saysClasses,
    _ | ⟨asksFilters, saysFilters, _ | ⟨asksMarks, saysMarks, _⟩⟩⟩⟩
  rcases isOk (by simp) saysQueues (by decide) with ⟨queues, heardQueues, root⟩
  rcases isOk (by simp) saysClasses (by simp [classesCheck, fatalNames]) with
    ⟨classes, heardClasses, enoughClasses⟩
  rcases isOk (by simp) saysFilters (by simp [filtersCheck, fatalNames]) with
    ⟨filters, heardFilters, enoughFilters⟩
  rcases isOk (by simp) saysMarks (by decide) with ⟨marks, heardMarks, isMarked⟩
  exact ⟨queues, classes, filters, marks, .cons ⟨asksQueues, heardQueues⟩
    (.cons ⟨asksClasses, heardClasses⟩ (.cons ⟨asksFilters, heardFilters⟩
      (.cons ⟨asksMarks, heardMarks⟩ .nil))), root, enoughClasses, enoughFilters, isMarked⟩

/-! ## Verifications that report everything -/

/-- A listing as the reply to its command. -/
def listed (text : String) : Reply :=
  .finished 0 (some text) none

theorem listed_of_reply {exchange : Exchange} {text : String}
    (replied : listed text = exchange.reply) : exchange.listed = .ok text :=
  Exchange.listed_eq_ok_iff.mpr ⟨some text, none, replied.symm, rfl⟩

/-- If all listings show what they should, everything is reported as found. -/
theorem reports_of_holds {compiled : Compiled} {backends : Backends}
    {queues classes filters marks : String} {last : List Reply}
    (made : AreMade backends (checksOf compiled.tree compiled.rules) exchanges results)
    (answers : Runner.replaying.Answers
      [listed queues, listed classes, listed filters, listed marks, listed marks] exchanges last)
    (root : queueCheck.holds queues.toList = true)
    (enoughClasses : (classesCheck compiled.tree).holds classes.toList = true)
    (enoughFilters : (filtersCheck compiled.rules).holds filters.toList = true)
    (isMarked : marksCheck.holds marks.toList = true) :
    (∀ name ∈ fatalNames, Reports results name) ∧
      exchanges[3]?.map (·.listed) = some (.ok marks) := by
  have reports {result : CheckResult} (member : result ∈ results) {check : Check} {text : String}
      {exchange : Exchange} (isVerdict : check.verdict exchange.listed = .ok result)
      (replied : listed text = exchange.reply) (holds : check.holds text.toList = true) :
      Reports results check.name :=
    ⟨result, member, Check.name_of_verdict isVerdict,
      (Check.isOk_iff_of_verdict isVerdict).mpr ⟨text, listed_of_reply replied, holds⟩⟩
  unfold checksOf at made
  rcases made with _ | ⟨_, saysQueues, _ | ⟨_, saysClasses, _ | ⟨_, saysFilters,
    _ | ⟨_, saysMarks, _⟩⟩⟩⟩
  rcases answers with ⟨queuesReplied, classesReplied, filtersReplied, marksReplied, _⟩
  refine ⟨?_, congrArg some (listed_of_reply marksReplied)⟩
  simp only [fatalNames, List.forall_mem_cons]
  exact ⟨reports (by simp) saysQueues queuesReplied root,
    reports (by simp) saysClasses classesReplied enoughClasses,
    reports (by simp) saysFilters filtersReplied enoughFilters,
    reports (by simp) saysMarks marksReplied isMarked, List.forall_mem_nil _⟩

/-- Whatever a chain shows with the text for marks in it, a verification can report everything. -/
theorem exists_reports {marks : String} (can : session.CanVerify)
    (isMarked : "MARK".toList <:+: marks.toList) :
    ∃ (host : Host) (id : SessionId) (exchanges : List Exchange) (host' : Host)
      (results : List CheckResult), host.sessions[id]? = some session ∧
        (verify id host).Says exchanges host' (.ok results) ∧
          (∀ name ∈ fatalNames, Reports results name) ∧
            exchanges[3]?.map (·.listed) = some (.ok marks) := by
  rcases can with ⟨checked, compiled, compiles⟩
  let host : Host := { newHost session.settings with sessions := [session] }
  have known : host.sessions[0]? = some session := rfl
  let classes := (List.replicate (compiled.tree.tiers.length + 1) "class hfsc".toList).flatten
  let filters := List.replicate compiled.rules.filters.length " fw handle".toList
  let texts : List String := ["qdisc hfsc 1:", String.ofList classes,
    String.ofList (filters.flatMap (· ++ ['\n'])), marks, marks]
  -- The listings are given in a row, and whatever is asked for after them is refused.
  rcases (verify 0 host).says_run Runner.replaying (texts.map listed) [] with
    ⟨exchanges, _, told, answers⟩
  have handled : AreHandled exchanges := by
    intro exchange member
    rcases Runner.mem_of_answers_replaying answers exchange member with given | refused
    · rcases List.mem_map.mp given with ⟨text, _, replied⟩
      rw [← replied]
      rfl
    · rw [refused]
      rfl
  rcases tells_verify_of_ok known checked compiles _ _ _ told with
    ⟨results, succeeded, made⟩ | ⟨unhandled, _⟩
  case inr => exact absurd handled unhandled
  rw [succeeded] at told
  have enoughClasses : (classesCheck compiled.tree).holds (String.ofList classes).toList = true := by
    rw [classesCheck_holds_iff, String.toList_ofList (l := classes)]
    exact Text.hasTimes_flatten_replicate _ _
  have enoughFilters : (filtersCheck compiled.rules).holds
      (String.ofList (filters.flatMap (· ++ ['\n']))).toList = true := by
    have inside : " fw handle".toList.all (Text.isLineEnd · = false) = true := by decide
    have lines : Text.lines (filters.flatMap (· ++ ['\n'])) = filters := by
      refine Text.lines_flatMap fun line member character within => ?_
      rw [List.eq_of_mem_replicate member] at within
      exact of_decide_eq_true (List.all_eq_true.mp inside character within)
    rw [filtersCheck_holds_iff, String.toList_ofList (l := filters.flatMap _), lines,
      List.countP_replicate, if_pos (by decide)]
  have reports := reports_of_holds made answers (by decide) enoughClasses enoughFilters
    (marksCheck_holds_iff.mpr isMarked)
  exact ⟨host, 0, exchanges, _, results, known, told, reports⟩

/-! ## What is vouched for -/

/-- If a verification reports everything while the chain is listed like this, what was compiled is
in the listings that were heard. -/
def VouchesFor (session : Session) (marks : String) : Prop :=
  ∀ (host : Host) (id : SessionId), host.sessions[id]? = some session →
    ∀ (exchanges : List Exchange) (host' : Host) (results : List CheckResult),
      (verify id host).Says exchanges host' (.ok results) →
        (∀ name ∈ fatalNames, Reports results name) →
          exchanges[3]?.map (·.listed) = some (.ok marks) →
            ∃ compiled queues classes filters,
              Compiled.ofSettings session.settings (session.roundTripFor session.settings) =
                .ok compiled ∧
              Hears session.backends exchanges queues classes filters marks ∧
                Shows compiled queues classes filters marks

theorem not_vouchesFor {marks : String} (can : session.CanVerify)
    (isMarked : "MARK".toList <:+: marks.toList) (noRule : ¬ HasMarkRule marks) :
    ¬ session.VouchesFor marks := by
  intro vouches
  rcases exists_reports can isMarked with
    ⟨host, id, exchanges, host', results, known, told, reported, heard⟩
  rcases vouches host id known exchanges host' results told reported heard with
    ⟨_, _, _, _, _, _, shows⟩
  exact noRule shows.marks

/-- A verification that reports everything vouches for the root, the classes and the filters, and
it does so for the marks if and only if a text for marks in the listing of the chain means a rule
that leads to them. -/
theorem vouchesFor_iff (session : Session) (marks : String) :
    session.VouchesFor marks ↔
      (session.CanVerify → "MARK".toList <:+: marks.toList → HasMarkRule marks) := by
  constructor
  · intro vouches can isMarked
    by_contra noRule
    exact not_vouchesFor can isMarked noRule vouches
  · intro means host id known exchanges host' results told reported heard
    rcases says_verify known told with ⟨checked, compiled, compiles, made⟩
    rcases exists_hears_of_reports made reported with
      ⟨queues, classes, filters, shown, hears, root, enoughClasses, enoughFilters, isMarked⟩
    obtain rfl : shown = marks := by
      have same := hears.listed_marks.symm.trans heard
      cases same
      rfl
    exact ⟨compiled, queues, classes, filters, compiles, hears, {
      root := queueCheck_holds_iff.mp root
      classes := classesCheck_holds_iff.mp enoughClasses
      filters := filtersCheck_holds_iff.mp enoughFilters
      marks := means ⟨checked, compiled, compiles⟩ (marksCheck_holds_iff.mp isMarked) }⟩

/-- The chain of the built-in settings has a name like that of its targets: without a single rule it
passes for a chain with marks. -/
theorem not_vouchesFor_of_builtIn :
    ∃ settings, Settings.ofDocument .system (.mapping []) none = .ok settings ∧
      ¬ HasMarkRule (emptyChain settings.marking.chain 1) ∧
        ¬ (fresh settings .made none []).VouchesFor (emptyChain settings.marking.chain 1) := by
  have evaluated : Settings.isAcceptedWith (.mapping []) (fun settings =>
      settings.compilesInOrder && (decide (settings.marking.chain = "QOS_MARK") && decide
        (settings.statePath = ⟨"/", ["var", "lib", "hfsc-qos", "last_applied.json"]⟩))) = true := by
    decide +kernel
  rcases Settings.exists_of_isAcceptedWith evaluated with ⟨settings, accepted, holds⟩
  simp only [Bool.and_eq_true, decide_eq_true_eq] at holds
  rcases holds with ⟨inOrder, isNamed, standard⟩
  rcases Settings.exists_ofSettings_of_compilesInOrder inOrder with ⟨compiled, compiles⟩
  have sameRoundTrip : (fresh settings .made none []).roundTripFor settings = settings.roundTrip :=
    ite_self _
  have can : (fresh settings .made none []).CanVerify :=
    ⟨check_readerLock (standard ▸ rfl), compiled, sameRoundTrip.symm ▸ compiles⟩
  have noRule : ¬ HasMarkRule (emptyChain settings.marking.chain 1) := by
    rw [isNamed]
    decide
  have isMarked : "MARK".toList <:+: (emptyChain settings.marking.chain 1).toList := by
    rw [← marksCheck_holds_iff, marksCheck_holds_emptyChain_iff, isNamed]
    decide
  exact ⟨settings, accepted, noRule, not_vouchesFor can isMarked noRule⟩

end Session

end UplinkShaper
