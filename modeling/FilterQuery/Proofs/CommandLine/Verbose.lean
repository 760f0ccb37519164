import FilterQuery.Proofs.CommandLine.Outcome

/-!
# A verbose run only adds lines

Verbosity is asked for on the command line and shows on the error channel, and nowhere else. A
program logs the same whether it is verbose or not, and verbosity tells up to which level the log is
shown. So a verbose run ends with the exit code of a quiet one and writes the same to standard
output. To the error channel it writes some lines more, in front of all that a quiet run writes
there (`run_verbose`), since nothing that only a verbose run shows is logged after the first text
that every run shows: a line on the number grammar and, if the tokens of a query are collected to be
printed, a line on how many there are.

Requests differ in verbosity by a field. Command lines differ by an option, and reading the
arguments behind it is seen to pass verbosity on without looking at it (`Reading.Carries`): an
operation that leads from one reading to another leads from the loud one to the loud other.
-/

namespace FilterQuery.CommandLine

/-! ## Reading a command line -/

namespace Reading

variable {r s : Reading} {a b : Except Stop Reading}

/-- The same reading with verbosity given in front of the command. -/
def loud (r : Reading) : Reading := { r with top := { r.top with verbose := true } }

/-- Two outcomes, of going on from a reading and from the loud one, where verbosity in front of the
command is passed on. If it is not given in the end, it was not given before, and then the loud
reading leads to the loud outcome. -/
def Carries (r : Reading) (a b : Except Stop Reading) : Prop :=
  ∀ s, a = .ok s → s.top.verbose = false → r.top.verbose = false ∧ b = .ok s.loud

theorem carries_error {stop : Stop} : r.Carries (.error stop) b := by
  intro s h
  simp at h

theorem carries_ok (h : s.top.verbose = r.top.verbose) : r.Carries (.ok s) (.ok s.loud) := by
  intro s' hs hquiet
  injection hs with hs
  subst hs
  exact ⟨h ▸ hquiet, rfl⟩

theorem Carries.bind {f : Reading → Except Stop Reading} (hab : r.Carries a b)
    (hf : ∀ s : Reading, s.Carries (f s) (f s.loud)) : r.Carries (a >>= f) (b >>= f) := by
  intro s' h hquiet
  cases a with
  | error stop => exact absurd h (by simp [Bind.bind, Except.bind])
  | ok s =>
    obtain ⟨hs, hloud⟩ := hf s s' h hquiet
    obtain ⟨hr, rfl⟩ := hab s rfl hs
    exact ⟨hr, hloud⟩

/-- Options that have nothing to do with verbosity are the same in a loud reading. -/
theorem view_given_loud {α : Type} (view : Given → α)
    (hview : ∀ g, view { g with verbose := true } = view g) :
    view r.loud.given = view r.given := by
  by_cases hcommand : r.command = none
  · simp [given, loud, hcommand, hview]
  · simp [given, loud, hcommand]

/-- Such an option is given to a loud reading as to the other. -/
theorem carries_setGiven {u : Given → Given} (hverbose : ∀ g, (u g).verbose = g.verbose)
    (hu : ∀ g, u { g with verbose := true } = { u g with verbose := true }) :
    r.Carries (.ok (r.setGiven (u r.given))) (.ok (r.loud.setGiven (u r.loud.given))) := by
  have hloud : r.loud.setGiven (u r.loud.given) = (r.setGiven (u r.given)).loud := by
    by_cases hcommand : r.command = none
    · simp [setGiven, given, loud, hcommand, hu]
    · simp [setGiven, given, loud, hcommand]
  rw [hloud]
  refine carries_ok ?_
  by_cases hcommand : r.command = none
  · simp [setGiven, given, hcommand, hverbose]
  · simp [setGiven, hcommand]

theorem carries_flag (switch : Switch) : r.Carries (r.flag switch) (r.loud.flag switch) := by
  cases switch with
  | verbose =>
    rw [flag]
    split
    · exact carries_error
    · next hgiven =>
      intro s h hquiet
      injection h with h
      subst h
      -- In front of the command, verbosity is given now. Behind it, a loud reading is no different.
      by_cases hcommand : r.command = none
      · simp [setGiven, hcommand] at hquiet
      · simp only [given, setGiven, if_neg hcommand] at hquiet hgiven
        refine ⟨hquiet, ?_⟩
        simp [flag, given, setGiven, loud, hcommand, hgiven]
  | strict =>
    rw [flag, flag, view_given_loud Given.strict fun _ => rfl]
    split
    · exact carries_error
    · exact carries_setGiven (u := fun g => { g with strict := true }) (fun _ => rfl) fun _ => rfl
  | numeric => exact carries_error
  | version => exact carries_error
  | help => exact carries_error
  | format => exact carries_error

theorem carries_assign (switch : Switch) (value : Text) :
    r.Carries (r.assign switch value) (r.loud.assign switch value) := by
  cases switch with
  | numeric =>
    simp only [assign, view_given_loud Given.numeric fun _ => rfl]
    split
    · exact carries_error
    · next numeric _ =>
      split
      · exact carries_error
      · exact carries_setGiven (u := fun g => { g with numeric := some numeric }) (fun _ => rfl)
          fun _ => rfl
  | format =>
    simp only [assign, view_given_loud Given.format fun _ => rfl]
    split
    · exact carries_error
    · next format _ =>
      split
      · exact carries_error
      · exact carries_setGiven (u := fun g => { g with format := some format }) (fun _ => rfl)
          fun _ => rfl
  | verbose => exact carries_error
  | strict => exact carries_error
  | version => exact carries_error
  | help => exact carries_error

theorem switch?_loud (fits : Switch → Bool) : r.loud.switch? fits = r.switch? fits := rfl

theorem carries_long (t : Text) : r.Carries (r.long t) (r.loud.long t) := by
  simp only [long, switch?_loud]
  split
  · exact carries_error
  · next switch _ =>
    split
    · exact carries_assign switch _
    · split
      · exact carries_ok rfl
      · exact carries_flag switch

/-- A short option without a value is taken, and then the rest of the row. -/
theorem short_of_flag {c : Char} {rest : Text} {switch : Switch}
    (hswitch : (r.switch? fun s => s.letter? = some c) = some switch)
    (hvalue : switch.takesValue = false) :
    r.short (c :: rest) = r.flag switch >>= fun s => s.short rest := by
  rw [short, hswitch]
  simp only [hvalue, Bool.false_eq_true, ↓reduceIte]
  cases r.flag switch <;> rfl

theorem carries_short : ∀ {r : Reading} (t : Text), r.Carries (r.short t) (r.loud.short t)
  | r, [] => carries_ok rfl
  | r, c :: rest => by
    cases hswitch : r.switch? fun s => s.letter? = some c with
    | none =>
      rw [short, hswitch]
      exact carries_error
    | some switch =>
      cases hvalue : switch.takesValue with
      | true =>
        rw [short, short, switch?_loud, hswitch]
        simp only [hvalue, ↓reduceIte]
        split
        · exact carries_ok rfl
        · exact carries_assign switch _
        · exact carries_assign switch _
      | false =>
        rw [short_of_flag hswitch hvalue, short_of_flag (r := r.loud) hswitch hvalue]
        exact (carries_flag switch).bind fun s => carries_short rest

theorem carries_plain (t : Text) : r.Carries (r.plain t) (r.loud.plain t) := by
  have hcommand : r.loud.command = r.command := rfl
  have hended : r.loud.ended = r.ended := rfl
  have hquery : r.loud.query = r.query := rfl
  simp only [plain, hcommand, hended, hquery]
  split
  · split
    · split
      · exact carries_error
      · split
        · exact carries_ok rfl
        · exact carries_ok rfl
    · exact carries_error
  · split
    · exact carries_error
    · exact carries_ok rfl

theorem carries_narrow (topic : Topic) (t : Text) :
    r.Carries (r.narrow topic t) (r.loud.narrow topic t) := by
  simp only [narrow]
  split
  · exact carries_ok rfl
  · exact carries_error

theorem carries_argument (t : Text) : r.Carries (r.argument t) (r.loud.argument t) := by
  have hpending : r.loud.pending = r.pending := rfl
  have hended : r.loud.ended = r.ended := rfl
  simp only [argument, hpending, hended]
  split
  · next switch _ =>
    split
    · exact carries_error
    · exact carries_assign (r := { r with pending := none }) switch t
  · split
    · exact carries_plain t
    · split
      · exact carries_plain _
      · exact carries_ok rfl
      · exact carries_long _
      · exact carries_short _
      · exact carries_plain _

theorem carries_step (t : Text) : r.Carries (r.step t) (r.loud.step t) := by
  have htopic : r.loud.topic = r.topic := rfl
  simp only [step, htopic]
  split
  · exact carries_narrow _ t
  · exact carries_argument t

/-- A row of arguments is read by one operation after the other. -/
theorem carries_foldlM : ∀ {r : Reading} (arguments : List Text),
    r.Carries (arguments.foldlM step r) (arguments.foldlM step r.loud)
  | r, [] => carries_ok rfl
  | r, t :: arguments => by
    rw [List.foldlM_cons, List.foldlM_cons]
    exact (carries_step t).bind fun s => carries_foldlM arguments

/-- The request is verbose if verbosity is given on either side of the command, and it depends on it
in nothing else. -/
theorem request_loud {environment : Option Text} {asked : Request}
    (h : r.request environment = .ok asked) :
    asked.verbose = (r.top.verbose || r.sub.verbose) ∧
      r.loud.request environment = .ok { asked with verbose := true } := by
  have htopic : r.loud.topic = r.topic := rfl
  have hpending : r.loud.pending = r.pending := rfl
  have hcommand : r.loud.command = r.command := rfl
  have htop : r.loud.top.numericOr environment = r.top.numericOr environment := rfl
  have hsub : r.loud.sub = r.sub := rfl
  revert h
  simp only [request, htopic, hpending, hcommand, htop, hsub]
  cases r.topic with
  | some topic => nofun
  | none =>
    cases r.pending with
    | some switch => nofun
    | none =>
      cases r.command with
      | none => nofun
      | some command =>
        cases r.top.numericOr environment with
        | error stop => nofun
        | ok above =>
          cases r.sub.numericOr environment with
          | error stop => nofun
          | ok below =>
            intro h
            obtain rfl := Except.ok.inj h
            exact ⟨rfl, rfl⟩

end Reading

/-- The option for verbosity in front of a command line that does not give it asks for the same,
verbosely. -/
theorem request_verbose {arguments : List Text} {environment : Option Text} {asked : Request}
    (h : request arguments environment = .ok asked) (hquiet : asked.verbose = false) :
    ∀ option ∈ ["-v".toList, "--verbose".toList],
      request (option :: arguments) environment = .ok { asked with verbose := true } := by
  intro option hoption
  have hstart : Reading.step {} option = .ok (Reading.loud {}) := by
    revert option
    decide
  cases hread : read arguments with
  | error stop =>
    rw [request, hread] at h
    cases h
  | ok r =>
    rw [request, hread] at h
    obtain ⟨hverbose, hloud⟩ := Reading.request_loud (r := r) h
    rw [hquiet] at hverbose
    have htop : r.top.verbose = false := (Bool.or_eq_false_iff.mp hverbose.symm).1
    have hcarries := (Reading.carries_foldlM arguments r hread htop).2
    have hreadloud : read (option :: arguments) = .ok r.loud := by
      rw [read, List.foldlM_cons, hstart]
      exact hcarries
    rw [request, hreadloud]
    exact hloud

/-! ## Running a request -/

/-- The lines that a verbose run writes to the error channel before all else. -/
def Request.noteLines (r : Request) (stdin : ByteArray) : List Text :=
  CommandLine.noteLines r.config (r.query? stdin) r.action

theorem newline_not_mem_noteLines {r : Request} {stdin : ByteArray} {line : Text}
    (h : line ∈ r.noteLines stdin) : '\n' ∉ line := by
  have hlines : shownLines .debug (r.records stdin) = r.noteLines stdin :=
    r.shownLines_records stdin true
  rw [← hlines] at h
  obtain ⟨record, hrecord, rfl⟩ := List.mem_map.mp h
  exact Request.newline_not_mem_line_records (List.mem_of_mem_filter hrecord)

/-- A verbose run differs from a quiet one only in what it writes to the error channel before all
else: the line on the number grammar and, if the tokens of a query that could be read are to be
printed, the line on these tokens, even if they are then refused. To ask for it, the option is put
in front of any command line. -/
theorem run_verbose (r : Request) (stdin : ByteArray) :
    let quiet := { r with verbose := false }
    let loud := { r with verbose := true }
    (loud.run stdin).exitCode = (quiet.run stdin).exitCode ∧
    (loud.run stdin).stdout = (quiet.run stdin).stdout ∧
    (loud.run stdin).stderr
      = (r.noteLines stdin).flatMap (· ++ ['\n']) ++ (quiet.run stdin).stderr ∧
    (∀ line ∈ r.noteLines stdin, '\n' ∉ line) ∧
    ∀ arguments environment, request arguments environment = .ok quiet →
      run arguments environment stdin = quiet.run stdin ∧
      ∀ option ∈ ["-v".toList, "--verbose".toList],
        run (option :: arguments) environment stdin = loud.run stdin := by
  intro quiet loud
  -- Both programs are the one of the request, and it comes to one outcome.
  have hloud : loud.run stdin
      = (Outcome.ofProgram .info (r.conclude stdin)).withLines (r.noteLines stdin) :=
    loud.run_eq stdin
  have hquiet : quiet.run stdin = Outcome.ofProgram .info (r.conclude stdin) := quiet.run_eq stdin
  refine ⟨?_, ?_, ?_, fun line => newline_not_mem_noteLines,
    fun arguments environment h => ⟨?_, fun option hoption => ?_⟩⟩
  · rw [hloud, hquiet]
    rfl
  · rw [hloud, hquiet]
    rfl
  · rw [hloud, hquiet]
    rfl
  · rw [run, h]
  · rw [run, request_verbose h rfl option hoption]

/-- The tokens are counted before they are refused. -/
theorem run_verbose_of_refused :
    run ["-v".toList, "tokenize".toList, "--strict".toList, "a #".toList] none .empty =
      { exitCode := 1
        stderr := "DEBUG lexer configured numeric=\"strict\"\n".toList
          ++ "DEBUG tokenized query tokens=2 unrecognized=1\n".toList
          ++ "Error: Unrecognized token '#' at position 2..3\n".toList } := by
  obtain ⟨hcode, hstdout, hstderr, -, hruns⟩ :=
    run_verbose ⟨{}, false, .tokenize .text true, some "a #".toList⟩ .empty
  have hrun := (hruns ["tokenize".toList, "--strict".toList, "a #".toList] none rfl).2
    "-v".toList (by decide)
  rw [hrun, Outcome.mk.injEq, hcode, hstdout, hstderr]
  exact ⟨by decide, by decide, by decide +kernel⟩

end FilterQuery.CommandLine
