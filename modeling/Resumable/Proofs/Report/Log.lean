import Resumable.Proofs.Report.Accounting
import Resumable.Proofs.Report.Earliest
import Resumable.Report.Session

/-!
# The log of a session

An event of a session forgets all issues, or it files some one after the other, until the
report gives up. The log of a session has each filing and each reset. The issues of the
report are those that were filed since the last reset, and the report gives up at just
the filings that make as many of them as the limit.
-/

namespace Resumable.Report

open Canon (Classifier Refusal canonDeclaration)
open Source (Declaration SourceUnit)

/-! ## Filing one issue after the other -/

/-- A filing of an issue, and whether the report gave up at it. -/
structure Filing where
  issue : Issue
  gaveUp : Bool
  deriving Repr, DecidableEq

/-- The filings when some issues are filed one after the other, until the report gives
up. -/
def filings (report : Report) : List Issue → List Filing
  | [] => []
  | issue :: issues =>
      match report.file issue with
      | (report, .ok ()) => ⟨issue, false⟩ :: report.filings issues
      | (_, .error _) => [⟨issue, true⟩]

section Filings

variable {report other : Report} {issue : Issue}

theorem filings_of_stopsAt (h : report.StopsAt 1) (issues : List Issue) :
    report.filings (issue :: issues) = [⟨issue, true⟩] := by
  simp only [filings, file_eq, if_pos h]

theorem filings_of_not_stopsAt (h : ¬report.StopsAt 1) (issues : List Issue) :
    report.filings (issue :: issues) = ⟨issue, false⟩ :: (report.filed [issue]).filings issues := by
  simp only [filings, file_eq, if_neg h]

/-- What matters for filing is how many issues there are, and the limit. -/
theorem filings_congr (hissues : report.issues = other.issues) (hlimit : report.limit = other.limit)
    (issues : List Issue) : report.filings issues = other.filings issues := by
  induction issues generalizing report other with
  | nil => rfl
  | cons issue issues ih =>
    have hiff : report.StopsAt 1 ↔ other.StopsAt 1 := by rw [StopsAt, StopsAt, hissues, hlimit]
    by_cases hstop : report.StopsAt 1
    · rw [filings_of_stopsAt hstop, filings_of_stopsAt (hiff.1 hstop)]
    · have hfiled : (report.filed [issue]).issues = (other.filed [issue]).issues :=
        congrArg (· ++ [issue]) hissues
      rw [filings_of_not_stopsAt hstop, filings_of_not_stopsAt (mt hiff.2 hstop), ih hfiled hlimit]

end Filings

/-- Work that files some issues until the report gives up, which ends it. -/
structure Files {α : Type} (report : Report) (issues : List Issue)
    (outcome : Report × Except Fault α) : Prop where
  added : outcome.1.issues = report.issues ++ (report.filings issues).map (·.issue)
  limit : outcome.1.limit = report.limit
  gaveUp : outcome.2 = .error .tooManyIssues ↔
    ∃ filing ∈ report.filings issues, filing.gaveUp = true

namespace Files

variable {α β : Type} {report other after : Report} {issue : Issue} {issues : List Issue}
  {result : Except Fault α} {outcome : Report × Except Fault α}

theorem nothing (hissues : after.issues = report.issues) (hlimit : after.limit = report.limit)
    (hresult : result ≠ .error .tooManyIssues) : Files report [] (after, result) where
  added := by rw [hissues, filings, List.map_nil, List.append_nil]
  limit := hlimit
  gaveUp := iff_of_false hresult (by simp [filings])

theorem stop (h : report.StopsAt 1) :
    Files report (issue :: issues)
      (report.filed [issue], (.error .tooManyIssues : Except Fault α)) where
  added := by rw [filings_of_stopsAt h]; rfl
  limit := rfl
  gaveUp := iff_of_true rfl (by simp [filings_of_stopsAt h])

theorem cons (h : ¬report.StopsAt 1) (hrest : Files (report.filed [issue]) issues outcome) :
    Files report (issue :: issues) outcome where
  added := by
    rw [hrest.added, filings_of_not_stopsAt h, List.map_cons, List.append_cons]
    rfl
  limit := hrest.limit
  gaveUp := by
    rw [hrest.gaveUp, filings_of_not_stopsAt h]
    simp

theorem map (h : Files report issues outcome) (f : α → β) :
    Files report issues (outcome.1, outcome.2.map f) where
  added := h.added
  limit := h.limit
  gaveUp := by
    rw [← h.gaveUp]
    cases outcome.2 <;> simp [Except.map]

theorem of_same (hissues : other.issues = report.issues) (hlimit : other.limit = report.limit)
    (h : Files other issues outcome) : Files report issues outcome where
  added := by rw [h.added, hissues, filings_congr hissues hlimit]
  limit := h.limit.trans hlimit
  gaveUp := by rw [h.gaveUp, filings_congr hissues hlimit]

theorem file (report : Report) (issue : Issue) : Files report [issue] (report.file issue) := by
  rw [file_eq]
  by_cases h : report.StopsAt 1
  · rw [if_pos h]
    exact stop h
  · rw [if_neg h]
    exact cons h (nothing rfl rfl (by simp))

end Files

/-! ## Declarations -/

/-- The work on declarations does not break down at this one. -/
def handled (classify : Classifier) (declaration : Declaration) : Bool :=
  match canonDeclaration classify declaration with
  | .ok _ => true
  | .error (.misshapen _) | .error (.overlong _) => false
  | .error (.refused refusal) => refusal.spot.isOk

/-- The refusals to file before the work breaks down: all of them, or the first. -/
def refusalsToFile (classify : Classifier) (keepGoing : Bool) (unit : SourceUnit) : List Refusal :=
  let refused := refusals classify (unit.takeWhile (handled classify))
  if keepGoing then refused else refused.take 1

section Declarations

variable {classify : Classifier} {keepGoing : Bool} {declaration : Declaration} {unit : SourceUnit}

theorem refusalsToFile_of_not_handled (h : handled classify declaration = false) :
    refusalsToFile classify keepGoing (declaration :: unit) = [] := by
  rw [refusalsToFile, List.takeWhile_cons, h]
  split <;> rfl

theorem refusalsToFile_cons_ok {procedure : Canon.Procedure}
    (h : canonDeclaration classify declaration = .ok procedure) :
    refusalsToFile classify keepGoing (declaration :: unit) =
      refusalsToFile classify keepGoing unit := by
  have hhandled : handled classify declaration = true := by simp only [handled, h]
  rw [refusalsToFile, List.takeWhile_cons_of_pos hhandled, refusals_cons_ok h, refusalsToFile]

theorem refusalsToFile_cons_refused {refusal : Refusal} {spot : Option Source.Spot}
    (h : canonDeclaration classify declaration = .error (.refused refusal))
    (hspot : refusal.spot = .ok spot) :
    refusalsToFile classify keepGoing (declaration :: unit) =
      refusal :: if keepGoing then refusalsToFile classify keepGoing unit else [] := by
  have hhandled : handled classify declaration = true := by
    simp only [handled, h, hspot, Except.isOk, Except.toBool]
  rw [refusalsToFile, List.takeWhile_cons_of_pos hhandled, refusals_cons_refused h, refusalsToFile]
  cases keepGoing <;> simp

theorem info_limit (report : Report) (words : List String) :
    (report.info words).limit = report.limit := by
  unfold info
  split <;> rfl

/-- Canonicalizing declarations files their refusals. -/
theorem canonicalize_files (report : Report) :
    Files report ((refusalsToFile classify keepGoing unit).map report.refusalIssue)
      (canonicalize classify keepGoing unit report) := by
  induction unit generalizing report with
  | nil =>
    have hnone : refusalsToFile classify keepGoing [] = [] := by
      cases keepGoing <;> rfl
    rw [hnone]
    exact .nothing rfl rfl (by simp)
  | cons declaration unit ih =>
    cases hcanon : canonDeclaration classify declaration with
    | ok procedure =>
      rw [canonicalize_cons_ok hcanon, refusalsToFile_cons_ok hcanon]
      refine Files.map (.of_same (report.info_issues ["Canonicalized", procedure.name])
        (report.info_limit _) ?_) _
      rw [← refusalIssue_congr (report.info_source ["Canonicalized", procedure.name])]
      exact ih _
    | error failure =>
      cases failure with
      | misshapen fault | overlong overlong =>
        have hbroken : handled classify declaration = false := by simp only [handled, hcanon]
        rw [refusalsToFile_of_not_handled hbroken]
        rw [canonDeclaration] at hcanon
        simp only [canonicalize, canonicalizeWithin, hcanon]
        exact .nothing rfl rfl (by simp)
      | refused refusal =>
        cases hspot : refusal.spot with
        | error headless =>
          have hbroken : handled classify declaration = false := by
            simp only [handled, hcanon, hspot, Except.isOk, Except.toBool]
          rw [refusalsToFile_of_not_handled hbroken]
          rw [canonDeclaration] at hcanon
          simp only [canonicalize, canonicalizeWithin, hcanon, refuse, hspot]
          exact .nothing rfl rfl (by simp)
        | ok spot =>
          rw [canonicalize_cons_refused hcanon hspot, refusalsToFile_cons_refused hcanon hspot]
          by_cases hstop : report.StopsAt 1
          · simp only [if_pos hstop]
            exact .stop hstop
          · simp only [if_neg hstop]
            cases keepGoing with
            | false => exact .cons hstop (.nothing rfl rfl (by simp))
            | true => exact .cons hstop (Files.map (ih _) _)

end Declarations

/-! ## Events -/

namespace Session

/-- The issues that an event is to file. -/
def issuesOf (session : Session) : Event → List Issue
  | .parseError kind spot hint =>
      [⟨"The parser got confused by " ++ kind ++ ".",
        session.report.annotate spot "confused here", [hint]⟩]
  | .strayCharacter character spot =>
      [⟨"The character " ++ Text.quote character ++ " does not belong in this language.",
        session.report.annotate spot "", []⟩]
  | .noSuchFile path => [⟨"I see no file called " ++ path, none, []⟩]
  | .brokenFile path => [⟨"Something went pear-shaped while trying to read " ++ path, none, []⟩]
  | .unsupported construct within spot =>
      [⟨Canon.unsupportedMessage construct,
        session.report.annotate spot (captionWithin within), []⟩]
  | .parse text =>
      match Parser.parse (Token.scan text) with
      | .accepted _ => []
      | .stray character spot => [strayIssue text character spot]
      | .confused symbols next spot =>
          [confusedIssue text next spot
            (Parser.Hint.text (symbols.map (·.text)) (nextText next))]
  | .canonicalize classify keepGoing =>
      match session.unit with
      | none => []
      | some unit => (refusalsToFile classify keepGoing unit).map session.report.refusalIssue
  | .bindSource _ | .reset | .info _ | .complain | .assertNoIssues _ => []

end Session

theorem foldl_print_issues (lines : List String) (report : Report) :
    (lines.foldl print report).issues = report.issues ∧
      (lines.foldl print report).limit = report.limit := by
  induction lines generalizing report with
  | nil => exact ⟨rfl, rfl⟩
  | cons line lines ih => exact ih _

theorem parse_files (report : Report) (text : String) :
    Files report (({ report } : Session).issuesOf (.parse text)) (report.parse text) := by
  have hissues : (report.bindSource text).issues = report.issues := rfl
  have hlimit : (report.bindSource text).limit = report.limit := rfl
  simp only [Session.issuesOf, parse]
  cases Parser.parse (Token.scan text) with
  | accepted derivation => exact .nothing rfl rfl (by simp)
  | stray character spot =>
    exact ((Files.file _ (strayIssue text character spot)).of_same hissues hlimit).map _
  | confused symbols next spot =>
    exact ((Files.file _ (confusedIssue text next spot _)).of_same hissues hlimit).map _

namespace Session

variable (session : Session) (luck : Luck)

/-- Each event but a reset files its issues. -/
theorem perform_files {event : Event} (hevent : event ≠ .reset) :
    Files session.report (session.issuesOf event)
      ((session.perform luck event).1.report, (session.perform luck event).2) := by
  have hafter {outcome : Report × Except Fault Unit} {issues : List Issue}
      (h : Files session.report issues outcome) :
      Files session.report issues ((session.after outcome).1.report, (session.after outcome).2) :=
    h.map _
  cases event with
  | parseError _ _ _ | strayCharacter _ _ | noSuchFile _ | brokenFile _ | unsupported _ _ _ =>
    exact hafter (.file _ _)
  | bindSource text => exact hafter (.nothing rfl rfl (by simp))
  | info words =>
    exact hafter (.nothing (session.report.info_issues words) (session.report.info_limit words)
      (by simp))
  | complain =>
    have hsaid := foldl_print_issues (complaint luck session.report.issues) session.report
    exact hafter (.nothing hsaid.1 hsaid.2 (by simp))
  | assertNoIssues message =>
    have hsaid := foldl_print_issues (complaint luck session.report.issues) session.report
    have hassert : Files session.report [] (session.report.assertNoIssues luck message) := by
      unfold assertNoIssues
      split
      · exact .nothing rfl rfl (by simp)
      · exact .nothing hsaid.1 hsaid.2 (by simp)
    exact hafter hassert
  | reset => exact absurd rfl hevent
  | parse text =>
    have hparse : Files session.report (session.issuesOf (.parse text))
      (session.report.parse text) := parse_files session.report text
    simp only [perform, performWithin, parseWithin_none]
    split
    · next report unit houtcome =>
      rw [houtcome] at hparse
      exact hparse.map fun unit => Value.parsed unit.isSome
    · next report fault houtcome =>
      rw [houtcome] at hparse
      exact hparse.map fun _ => Value.nothing
  | canonicalize classify keepGoing =>
    cases hunit : session.unit with
    | none =>
      simp only [perform, performWithin, issuesOf, hunit]
      exact .nothing rfl rfl (by simp)
    | some unit =>
      simp only [perform, performWithin, issuesOf, hunit]
      exact (canonicalize_files session.report).map _

end Session

/-! ## Logs -/

/-- Something in the log of a session. -/
inductive Entry where
  | filing (it : Filing)
  | reset
  deriving Repr, DecidableEq

/-- The filings since the last reset, with one more entry. -/
def extend (filings : List Filing) : Entry → List Filing
  | .filing it => filings ++ [it]
  | .reset => []

/-- The filings of a log since the last reset. -/
def sinceReset (log : List Entry) : List Filing :=
  log.foldl extend []

/-- After some filings since the last reset, the report gives up at just the filings that
make as many as the limit. -/
def Marked (limit : Option Int) : List Filing → List Entry → Prop
  | _, [] => True
  | filings, .reset :: log => Marked limit (extend filings .reset) log
  | filings, .filing it :: log =>
      (it.gaveUp = true ↔ limit = some ((filings.length + 1 : Nat) : Int)) ∧
        Marked limit (extend filings (.filing it)) log

section Marked

variable {limit : Option Int} {filings : List Filing}

theorem Marked.append {log more : List Entry} (h : Marked limit filings log)
    (hmore : Marked limit (log.foldl extend filings) more) :
    Marked limit filings (log ++ more) := by
  induction log generalizing filings with
  | nil => exact hmore
  | cons entry log ih =>
    cases entry with
    | reset => exact ih h hmore
    | filing it => exact ⟨h.1, ih h.2 hmore⟩

theorem Marked.gaveUp_iff {earlier later : List Entry} {it : Filing}
    (h : Marked limit filings (earlier ++ .filing it :: later)) :
    it.gaveUp = true ↔ limit = some (((earlier.foldl extend filings).length + 1 : Nat) : Int) := by
  induction earlier generalizing filings with
  | nil => exact h.1
  | cons entry earlier ih =>
    cases entry with
    | reset => exact ih h
    | filing it => exact ih h.2

theorem foldl_extend_map (more : List Filing) :
    (more.map Entry.filing).foldl extend filings = filings ++ more := by
  induction more generalizing filings with
  | nil => exact (List.append_nil filings).symm
  | cons it more ih => rw [List.map_cons, List.foldl_cons, ih, List.append_cons, extend]

/-- Without a reset all filings are kept. -/
theorem length_foldl_extend {log : List Entry} (h : .reset ∉ log) :
    (log.foldl extend filings).length = filings.length + log.length := by
  induction log generalizing filings with
  | nil => rfl
  | cons entry log ih =>
    cases entry with
    | reset => exact absurd List.mem_cons_self h
    | filing it =>
      rw [List.foldl_cons, ih (mt (List.mem_cons_of_mem _) h), extend, List.length_append,
        List.length_singleton, List.length_cons]
      omega

/-- Between two filings at which the report gives up there is a reset: without one, the
second comes after more filings than the first. -/
theorem Marked.reset_between {earlier between later : List Entry} {first second : Filing}
    (h : Marked limit filings (earlier ++ .filing first :: between ++ .filing second :: later))
    (hfirst : first.gaveUp = true) (hsecond : second.gaveUp = true) : .reset ∈ between := by
  by_contra hnone
  have hlimit := h.gaveUp_iff.1 hsecond
  rw [List.append_assoc] at h
  have hlength : ((earlier ++ .filing first :: between).foldl extend filings).length =
      (earlier.foldl extend filings).length + 1 + between.length := by
    rw [List.foldl_append, List.foldl_cons, length_foldl_extend hnone, extend, List.length_append,
      List.length_singleton]
  rw [h.gaveUp_iff.1 hfirst, hlength, Option.some.injEq] at hlimit
  omega

/-- The report gives up only at a positive limit. -/
theorem Marked.not_gaveUp {log : List Entry} {it : Filing} (h : Marked limit filings log)
    (hlimit : ∀ most, limit = some most → most ≤ 0) (hit : .filing it ∈ log) :
    it.gaveUp = false := by
  obtain ⟨earlier, later, rfl⟩ := List.append_of_mem hit
  cases hraised : it.gaveUp with
  | false => rfl
  | true =>
    have hmost := hlimit _ (h.gaveUp_iff.1 hraised)
    omega

theorem marked_filings {report : Report} (hlimit : report.limit = limit)
    (hcount : report.issues.length = filings.length) (issues : List Issue) :
    Marked limit filings ((report.filings issues).map .filing) := by
  induction issues generalizing report filings with
  | nil => trivial
  | cons issue issues ih =>
    have hstop : report.StopsAt 1 ↔ limit = some ((filings.length + 1 : Nat) : Int) := by
      rw [StopsAt, hlimit, hcount]
    by_cases h : report.StopsAt 1
    · rw [filings_of_stopsAt h]
      exact ⟨iff_of_true rfl (hstop.1 h), trivial⟩
    · rw [filings_of_not_stopsAt h]
      refine ⟨iff_of_false Bool.false_ne_true (mt hstop.2 h), ih hlimit ?_⟩
      simp only [filed, extend, List.length_append, List.length_singleton, hcount]

end Marked

namespace Session

/-- What an event adds to the log. -/
def entries (session : Session) : Event → List Entry
  | .reset => [.reset]
  | event => (session.report.filings (session.issuesOf event)).map .filing

theorem entries_eq (session : Session) {event : Event} (h : event ≠ .reset) :
    session.entries event = (session.report.filings (session.issuesOf event)).map .filing := by
  cases event with
  | reset => exact absurd rfl h
  | _ => rfl

/-- The log of some events, one after the other. -/
def log (session : Session) (luck : Luck) : List Event → List Entry
  | [] => []
  | event :: events => session.entries event ++ (session.perform luck event).1.log luck events

theorem log_concat (session : Session) (luck : Luck) (events : List Event) (event : Event) :
    session.log luck (events ++ [event]) =
      session.log luck events ++ (session.performAll luck events).1.entries event := by
  induction events generalizing session with
  | nil => simp [log, performAll]
  | cons first events ih =>
    rw [List.cons_append, log, ih, log, List.append_assoc]
    rfl

/-- The report of a session has the issues of some filings, and a limit. -/
structure Recorded (limit : Option Int) (filings : List Filing) (session : Session) : Prop where
  issues : session.report.issues = filings.map (·.issue)
  limit : session.report.limit = limit

variable {limit : Option Int} {filings : List Filing} {session : Session}

/-- An event does to the report what it adds to the log. -/
theorem Recorded.perform (h : Recorded limit filings session) (luck : Luck) (event : Event) :
    Recorded limit ((session.entries event).foldl extend filings) (session.perform luck event).1 ∧
      Marked limit filings (session.entries event) := by
  by_cases hreset : event = .reset
  · subst hreset
    exact ⟨⟨rfl, h.limit⟩, trivial⟩
  · have hfiles := session.perform_files luck hreset
    rw [session.entries_eq hreset]
    refine ⟨⟨?_, hfiles.limit.trans h.limit⟩, marked_filings h.limit ?_ _⟩
    · rw [hfiles.added, foldl_extend_map, List.map_append, h.issues]
    · rw [h.issues, List.length_map]

/-- Events one after the other do to the report what they add to the log. -/
theorem Recorded.performAll (h : Recorded limit filings session) (luck : Luck)
    (events : List Event) :
    Recorded limit ((session.log luck events).foldl extend filings)
        (session.performAll luck events).1 ∧
      Marked limit filings (session.log luck events) := by
  induction events generalizing session filings with
  | nil => exact ⟨h, trivial⟩
  | cons event events ih =>
    obtain ⟨hnext, hentries⟩ := h.perform luck event
    obtain ⟨hlast, hlog⟩ := ih hnext
    rw [log, List.foldl_append]
    exact ⟨hlast, hentries.append hlog⟩

/-- An event is broken off with too many issues if the report gives up at one of its
filings. -/
theorem perform_eq_tooManyIssues_iff (session : Session) (luck : Luck) (event : Event) :
    (session.perform luck event).2 = .error .tooManyIssues ↔
      ∃ filing, .filing filing ∈ session.entries event ∧ filing.gaveUp = true := by
  by_cases hreset : event = .reset
  · subst hreset
    refine iff_of_false (by simp [perform, performWithin, after, Except.map]) ?_
    rintro ⟨filing, hfiling, -⟩
    cases List.mem_singleton.1 hfiling
  · rw [(session.perform_files luck hreset).gaveUp, session.entries_eq hreset]
    simp

end Session

/-- Whatever happens in a session, the issues of its report are those that were filed since
the last reset. Only a reset takes issues away, and then all of them. The report gives up
at just the filings that make as many issues since the last reset as the limit: at most
one between two resets, and none if the limit is not positive. -/
theorem session_issues (verbose : Bool) (limit : Option Int) (luck : Luck) (events : List Event) :
    let start : Session := { report := { verbose, limit } }
    let session := (start.performAll luck events).1
    let log := start.log luck events
    session.report.issues = (sinceReset log).map (·.issue) ∧
    session.report.sick = !session.report.ok ∧
    (session.report.ok = true ↔ sinceReset log = []) ∧
    (∀ event,
      let next := session.perform luck event
      start.log luck (events ++ [event]) = log ++ session.entries event ∧
      (event ≠ .reset → session.report.issues <+: next.1.report.issues ∧
        session.report.issues.map Issue.text <+: next.1.report.issues.map Issue.text) ∧
      (event = .reset → next.1.report.issues = []) ∧
      (next.2 = .error .tooManyIssues ↔
        ∃ filing : Filing, .filing filing ∈ session.entries event ∧ filing.gaveUp = true)) ∧
    (∀ (earlier later : List Entry) (filing : Filing), log = earlier ++ .filing filing :: later →
      (filing.gaveUp = true ↔ limit = some (((sinceReset earlier).length + 1 : Nat) : Int))) ∧
    (∀ (earlier between later : List Entry) (first second : Filing),
      log = earlier ++ .filing first :: between ++ .filing second :: later →
      first.gaveUp = true → second.gaveUp = true → .reset ∈ between) ∧
    ((∀ most, limit = some most → most ≤ 0) →
      ∀ filing : Filing, .filing filing ∈ log → filing.gaveUp = false) := by
  intro start session log
  have hstart : Session.Recorded limit [] start := ⟨rfl, rfl⟩
  obtain ⟨hrecorded, hmarked⟩ : Session.Recorded limit (sinceReset log) session ∧
    Marked limit [] log := hstart.performAll luck events
  refine ⟨hrecorded.issues, rfl, ?_, fun event => ⟨start.log_concat luck events event, ?_, ?_,
    session.perform_eq_tooManyIssues_iff luck event⟩, ?_, ?_, ?_⟩
  · rw [ok, hrecorded.issues, List.isEmpty_iff, List.map_eq_nil_iff]
  · intro hevent
    have hkept : session.report.issues <+: (session.perform luck event).1.report.issues :=
      ⟨_, (session.perform_files luck hevent).added.symm⟩
    exact ⟨hkept, hkept.map Issue.text⟩
  · rintro rfl
    rfl
  · intro earlier later filing hlog
    rw [hlog] at hmarked
    exact hmarked.gaveUp_iff
  · intro earlier between later first second hlog hfirst hsecond
    rw [hlog] at hmarked
    exact hmarked.reset_between hfirst hsecond
  · intro hnever filing hfiling
    exact hmarked.not_gaveUp hnever hfiling

/-- The report gives up at the second issue, goes on with the third, and gives up at the
second one after a reset. -/
example :
    let start : Session := { report := { limit := some 2 } }
    let missing : Event := .noSuchFile "a"
    let filing (gaveUp : Bool) : Entry := .filing ⟨⟨"I see no file called a", none, []⟩, gaveUp⟩
    start.log ⟨0, 0, 0⟩ [missing, missing, missing, .reset, missing, missing] =
      [filing false, filing true, filing false, .reset, filing false, filing true] := by
  decide +kernel

end Resumable.Report
