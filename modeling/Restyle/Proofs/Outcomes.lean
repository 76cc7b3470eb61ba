import Restyle.Proofs.FileSystems
import Restyle.Proofs.SourceNames

/-!
# All or nothing

A command either gets through or leaves everything as it was, as long as writing does not break off
(`main_all_or_nothing`).  Reading changes nothing, a conversion is made before anything is opened for
writing, and there is one place where a result goes: standard output or what the path that is asked for
leads to.  So the text that was read is that of the file system as it was, also when it stands in the very
file that is written.

Nothing takes back what has been written, though.  If a disk is full in the midst of writing, the file is
left with the front of the result, and a path may lead to a device, such as standard output under a name
(`not_all_or_nothing`).
-/

namespace Restyle.Cli

/-! ## What a run reads and where it writes -/

/-- The text at a path, or on standard input. -/
def FileSystem.given (fs : FileSystem) (faults : Faults) (input : ByteArray) (path : String) :
    Except FileError String :=
  if path == standardInput then faults.input.elim (textOf input) .error
  else (faults.reading path).elim (fs.read path >>= textOf) .error

/-- What is opened for a result, which may be nothing but standard output. -/
def FileSystem.opened (fs : FileSystem) (faults : Faults) :
    Option String → Except FileError (Option FileSystem.Target)
  | none => .ok none
  | some file => (faults.opening file).elim (some <$> fs.target file) .error

/-- Where writing a result breaks off. -/
def Faults.stop (faults : Faults) : Option String → Option Break
  | none => faults.printing
  | some file => faults.writing file

def World.deliver (w : World) : Option FileSystem.Target → ByteArray → World
  | none, content => w.print content
  | some target, content => w.write target content

/-- Where a content has gone, with nothing else done: to standard output, or to a file or a device that is
asked for. -/
def FileSystem.Has (fs : FileSystem) (content : ByteArray) : Option String → World → Prop
  | none, w => w = ⟨fs, content⟩
  | some file, w =>
    (∃ place, fs.target file = .ok (.file place) ∧ w.printed = .empty ∧
      fs.Replaces file content w.files) ∨
    ∃ device, fs.target file = .ok (.device device) ∧
      w = ⟨fs, if device.isOutput then content else .empty⟩

theorem given_standardInput {fs : FileSystem} {faults : Faults} (h : faults.input = none)
    (text : String) : fs.given faults text.toUTF8 standardInput = .ok text := by
  rw [FileSystem.given, if_pos (beq_self_eq_true _), h]
  exact textOf_toUTF8 text

/-- Why there is no text. -/
def unreadable (path : String) (e : FileError) : Ending :=
  if path == standardInput then failed ("failed to read stdin: " ++ e.message)
  else failed ("failed to read " ++ path ++ ": " ++ e.message)

theorem unreadable_exit (path : String) (e : FileError) : (unreadable path e).exit ≠ 0 := by
  unfold unreadable
  split <;> exact Nat.one_ne_zero

section

variable (faults : Faults) (input : ByteArray) (path : String) (output : Option String) (w : World)

/-- Reading a text changes nothing. -/
theorem run_source : (source (World.host faults input) path).run w =
    ((w.files.given faults input path).mapError (unreadable path), w) := by
  have hread : ((World.host faults input).read path).run w =
      ((faults.reading path).elim (w.files.read path >>= textOf) .error, w) := rfl
  have hinput : ((World.host faults input).input).run w =
      (faults.input.elim (textOf input) .error, w) := rfl
  unfold source FileSystem.given unreadable
  cases hpath : path == standardInput with
  | true =>
    simp only [if_true]
    rw [StateT.run_bind, hinput]
    cases faults.input.elim (textOf input) Except.error <;> rfl
  | false =>
    simp only [Bool.false_eq_true, if_false]
    rw [StateT.run_bind, hread]
    cases (faults.reading path).elim (w.files.read path >>= textOf) Except.error <;> rfl

/-- What cannot be opened stays as it is, and what has been opened holds what gets through. -/
theorem run_deliver (text : String) : (deliver (World.host faults input) output text).run w =
    match w.files.opened faults output with
    | .error e => (written output (.error e), w)
    | .ok opened => (written output (verdict (faults.stop output)),
        w.deliver opened (through (faults.stop output) text.toUTF8)) := by
  unfold deliver
  rw [StateT.run_map]
  cases output with
  | none => rfl
  | some file =>
    simp only [World.host, FileSystem.opened, Option.elim_some]
    rw [StateT.run_bind, StateT.run_get, pure_bind]
    cases faults.opening file with
    | some e => rfl
    | none =>
      simp only [Option.elim_none]
      cases w.files.target file <;> rfl

theorem opened_of_target {fs : FileSystem} {faults : Faults} {file : String}
    {target : FileSystem.Target} (hopening : faults.opening file = none)
    (h : fs.target file = .ok target) : fs.opened faults (some file) = .ok (some target) := by
  rw [FileSystem.opened, hopening, Option.elim_none, h]
  rfl

/-- What is delivered is where it should be. -/
theorem has_deliver {fs : FileSystem} {opened : Option FileSystem.Target}
    (h : fs.opened faults output = .ok opened) (content : ByteArray) :
    fs.Has content output (World.deliver ⟨fs, .empty⟩ opened content) := by
  cases output with
  | none =>
    cases h
    exact congrArg (World.mk fs) ByteArray.empty_append
  | some file =>
    cases hopening : faults.opening file with
    | some e =>
      rw [FileSystem.opened, hopening] at h
      cases h
    | none =>
      rw [FileSystem.opened, hopening] at h
      cases htarget : fs.target file with
      | error e =>
        rw [htarget] at h
        cases h
      | ok target =>
        rw [htarget] at h
        cases h
        cases target with
        | file place => exact .inl ⟨place, htarget, rfl, FileSystem.replaces_put htarget content⟩
        | device device =>
          refine .inr ⟨device, htarget, ?_⟩
          change (if device.isOutput then _ else _) = _
          cases device.isOutput
          · rfl
          · exact congrArg (World.mk fs) ByteArray.empty_append

end

/-! ## Conversions -/

section

variable (fs : FileSystem) (faults : Faults) (input : ByteArray) (path : String)
  (output : Option String)

/-- How a conversion ends: the run gets through exactly if there is a text, the text converts, the output
can be opened and writing does not break off.  The result is then where it should be.  Otherwise everything
is as before, unless writing has begun: then the front of the result is where the result should be. -/
structure Converts {ε : Type} (conversion : String → Except ε String) (run : Ending × World) : Prop where
  exit_eq_zero_iff : run.1.exit = 0 ↔ ∃ text result opened, fs.given faults input path = .ok text ∧
    conversion text = .ok result ∧ fs.opened faults output = .ok opened ∧ faults.stop output = none
  has : run.1.exit = 0 → ∃ text result, fs.given faults input path = .ok text ∧
    conversion text = .ok result ∧ fs.Has result.toUTF8 output run.2
  keeps : run.1.exit ≠ 0 → run.2 = ⟨fs, .empty⟩ ∨
    ∃ text result stop, fs.given faults input path = .ok text ∧ conversion text = .ok result ∧
      faults.stop output = some stop ∧ fs.Has (result.toUTF8.extract 0 stop.got) output run.2

/-- A run that fails before anything is opened for writing. -/
theorem converts_of_failed {ε : Type} {conversion : String → Except ε String} {ending : Ending}
    (hexit : ending.exit ≠ 0) (h : ∀ text result opened, fs.given faults input path = .ok text →
      conversion text = .ok result → fs.opened faults output ≠ .ok opened) :
    Converts fs faults input path output conversion (ending, ⟨fs, .empty⟩) where
  exit_eq_zero_iff := by
    constructor
    · intro hzero
      exact absurd hzero hexit
    · rintro ⟨text, result, opened, hgiven, hresult, hopened, -⟩
      exact absurd hopened (h text result opened hgiven hresult)
  has hzero := absurd hzero hexit
  keeps _ := .inl rfl

/-- A run that has opened its output. -/
theorem converts_of_opened {ε : Type} {conversion : String → Except ε String} {text result : String}
    {opened : Option FileSystem.Target} (hgiven : fs.given faults input path = .ok text)
    (hresult : conversion text = .ok result) (hopened : fs.opened faults output = .ok opened) :
    Converts fs faults input path output conversion (written output (verdict (faults.stop output)),
      World.deliver ⟨fs, .empty⟩ opened (through (faults.stop output) result.toUTF8)) := by
  have hhas := has_deliver faults output hopened (through (faults.stop output) result.toUTF8)
  cases hstop : faults.stop output with
  | none =>
    rw [hstop] at hhas
    exact
      { exit_eq_zero_iff := iff_of_true rfl ⟨text, result, opened, hgiven, hresult, hopened, hstop⟩
        has := fun _ => ⟨text, result, hgiven, hresult, hhas⟩
        keeps := fun hexit => absurd rfl hexit }
  | some stop =>
    rw [hstop] at hhas
    refine ⟨iff_of_false Nat.one_ne_zero ?_, fun hexit => absurd hexit Nat.one_ne_zero, fun _ => ?_⟩
    · rintro ⟨_, _, _, -, -, -, hnone⟩
      rw [hstop] at hnone
      cases hnone
    · exact .inr ⟨text, result, stop, hgiven, hresult, hstop, hhas⟩

/-- A conversion goes from one step to the next as long as each gets through. -/
theorem run_convert (conversion : String → Except Ending String) (w : World) :
    (convert (World.host faults input) path output conversion).run w =
      match w.files.given faults input path with
      | .error e => (unreadable path e, w)
      | .ok text =>
        match conversion text with
        | .error ending => (ending, w)
        | .ok result => (deliver (World.host faults input) output result).run w := by
  unfold convert
  rw [StateT.run_bind, run_source]
  cases w.files.given faults input path with
  | error e => rfl
  | ok text =>
    change StateT.run (match conversion text with
      | .error ending => pure ending
      | .ok result => deliver (World.host faults input) output result) w =
        match conversion text with
        | .error ending => (ending, w)
        | .ok result => (deliver (World.host faults input) output result).run w
    cases conversion text <;> rfl

theorem converts_run_convert {ε : Type} (conversion : String → Except ε String) {failure : ε → Ending}
    (hfailure : ∀ e, (failure e).exit ≠ 0) :
    Converts fs faults input path output conversion
      ((convert (World.host faults input) path output fun text =>
        (conversion text).mapError failure).run ⟨fs, .empty⟩) := by
  rw [run_convert]
  dsimp only
  cases hgiven : fs.given faults input path with
  | error e =>
    refine converts_of_failed fs faults input path output (unreadable_exit path e) ?_
    intro text result opened htext
    rw [hgiven] at htext
    cases htext
  | ok text =>
    dsimp only
    cases hresult : conversion text with
    | error e =>
      refine converts_of_failed fs faults input path output (hfailure e) ?_
      intro text' result opened htext hresult'
      obtain rfl := Except.ok.inj (hgiven.symm.trans htext)
      rw [hresult] at hresult'
      cases hresult'
    | ok result =>
      dsimp only [Except.mapError]
      rw [run_deliver]
      dsimp only
      cases hopened : fs.opened faults output with
      | error e =>
        refine converts_of_failed fs faults input path output Nat.one_ne_zero ?_
        intro text' result' opened _ _ hopened'
        rw [hopened] at hopened'
        cases hopened'
      | ok opened => exact converts_of_opened fs faults input path output hgiven hresult hopened

/-! ## Checks -/

/-- What `check` lists: why there is no text, or the problems of the text. -/
def complaints : List String :=
  match fs.given faults input path with
  | .error e => [(unreadable path e).stderr]
  | .ok css => (problemsOf css (displayName path)).map (problemLine (displayName path))

/-- Checking a style sheet changes nothing. -/
theorem run_check (w : World) : (run (World.host faults input) (.check path)).run w =
    (match w.files.given faults input path with
      | .error e => unreadable path e
      | .ok css => checked css (displayName path), w) := by
  unfold run
  dsimp only
  rw [StateT.run_bind, run_source]
  cases w.files.given faults input path <;> rfl

/-- How a check ends. -/
structure Checks (run : Ending × World) : Prop where
  exit_eq_zero_iff : run.1.exit = 0 ↔ complaints fs faults input path = []
  stderr_eq : run.1.stderr = if complaints fs faults input path = [] then
    "OK: " ++ displayName path ++ "\n" else String.join (complaints fs faults input path)
  keeps : run.2 = ⟨fs, .empty⟩

theorem checks_run_check : Checks fs faults input path
    ((run (World.host faults input) (.check path)).run ⟨fs, .empty⟩) := by
  rw [run_check]
  dsimp only
  cases hgiven : fs.given faults input path with
  | error e =>
    have hcomplaints : complaints fs faults input path = [(unreadable path e).stderr] := by
      rw [complaints, hgiven]
    refine ⟨?_, ?_, rfl⟩
    · rw [hcomplaints]
      exact iff_of_false (unreadable_exit path e) nofun
    · rw [hcomplaints, if_neg nofun]
      exact String.empty_append.symm
  | ok css =>
    have hcomplaints : complaints fs faults input path =
        (problemsOf css (displayName path)).map (problemLine (displayName path)) := by
      rw [complaints, hgiven]
    dsimp only [checked]
    cases hproblems : problemsOf css (displayName path) with
    | nil =>
      rw [hproblems, List.map_nil] at hcomplaints
      refine ⟨iff_of_true rfl hcomplaints, ?_, rfl⟩
      rw [hcomplaints]
      rfl
    | cons p ps =>
      rw [hproblems, List.map_cons] at hcomplaints
      refine ⟨iff_of_false Nat.one_ne_zero ?_, ?_, rfl⟩
      · rw [hcomplaints]
        exact List.cons_ne_nil _ _
      · rw [hcomplaints]
        rfl

end

/-! ## The program -/

section

variable {fs : FileSystem} {faults : Faults} {input : ByteArray} {args : List String}

theorem runIn_of_command {command : Command} (h : Request.ofArguments? args = some (.run command)) :
    runIn fs faults input args = (run (World.host faults input) command).run ⟨fs, .empty⟩ := by
  rw [runIn, main, h]

/-- A run that has come so far as to write a module. -/
theorem runIn_of_module {path text result : String} {unit : Option String} {dashes lenient : Bool}
    {output : Option String} {opened : Option FileSystem.Target}
    (hrequest : Request.ofArguments? args = some (.run (.toModule path unit dashes lenient output)))
    (hgiven : fs.given faults input path = .ok text)
    (hresult : Convert.moduleOfCss text (moduleOptions path unit dashes lenient) = .ok result)
    (hopened : fs.opened faults output = .ok opened) :
    runIn fs faults input args = (written output (verdict (faults.stop output)),
      World.deliver ⟨fs, .empty⟩ opened (through (faults.stop output) result.toUTF8)) := by
  rw [runIn_of_command hrequest, run, run_convert]
  dsimp only
  rw [hgiven]
  dsimp only
  rw [hresult]
  dsimp only [Except.mapError]
  rw [run_deliver]
  dsimp only
  rw [hopened]

/-- A run that fails leaves everything as it is, unless writing has broken off. -/
theorem keeps_of_exit_ne_zero (h : (runIn fs faults input args).1.exit ≠ 0) :
    (runIn fs faults input args).2 = ⟨fs, .empty⟩ ∨
      ∃ output stop, ∃ result : String, faults.stop output = some stop ∧
        fs.Has (result.toUTF8.extract 0 stop.got) output (runIn fs faults input args).2 := by
  have keeps : ∀ {ε : Type} {path : String} {output : Option String}
      {conversion : String → Except ε String} {run : Ending × World},
      Converts fs faults input path output conversion run → run.1.exit ≠ 0 → run.2 = ⟨fs, .empty⟩ ∨
        ∃ output stop, ∃ result : String, faults.stop output = some stop ∧
          fs.Has (result.toUTF8.extract 0 stop.got) output run.2 := by
    intro ε path output conversion run hconverts hexit
    refine (hconverts.keeps hexit).imp_right ?_
    rintro ⟨_, result, stop, -, -, hstop, hhas⟩
    exact ⟨output, stop, result, hstop, hhas⟩
  cases hrequest : Request.ofArguments? args with
  | none =>
    unfold runIn main
    rw [hrequest]
    exact .inl rfl
  | some request =>
    cases request with
    | version | help =>
      unfold runIn main at h
      rw [hrequest] at h
      exact absurd rfl h
    | run command =>
      rw [runIn_of_command hrequest] at h ⊢
      cases command with
      | toModule path unit dashes lenient output =>
        exact keeps (converts_run_convert fs faults input path output
          (Convert.moduleOfCss · (moduleOptions path unit dashes lenient)) fun _ => Nat.one_ne_zero) h
      | toCss path output =>
        exact keeps (converts_run_convert fs faults input path output Convert.cssOfJson
          fun _ => Nat.one_ne_zero) h
      | check path => exact .inl (checks_run_check fs faults input path).keeps

end

/-- **A command gets through or leaves everything as it was, unless writing breaks off.**  A run that does
not end with code 0 has written nothing to standard output and changed no file, or it has opened its output
and writing has broken off there.  A conversion ends with code 0 exactly if its text can be read and
converted and the result can be written.  Then the result is on standard output with no file changed, or it
is all that the file asked for holds, with nothing on standard output and everything else as before, or it
has gone to the device asked for.  If writing breaks off, there is the front of the result instead.  What
counts as the text is what stood there before the run, also where the file is that of the text.  A style
sheet without problems has the module that it has without a name and in strict mode.  A check never writes
to standard output or to a file, and it ends with code 0 exactly if it lists nothing. -/
theorem main_all_or_nothing (fs : FileSystem) (faults : Faults) (input : ByteArray)
    (args : List String) :
    ((runIn fs faults input args).1.exit ≠ 0 → (runIn fs faults input args).2 = ⟨fs, .empty⟩ ∨
      ∃ output stop, ∃ result : String, faults.stop output = some stop ∧
        fs.Has (result.toUTF8.extract 0 stop.got) output (runIn fs faults input args).2) ∧
    (∀ path unit dashes lenient output,
      Request.ofArguments? args = some (.run (.toModule path unit dashes lenient output)) →
        Converts fs faults input path output
          (Convert.moduleOfCss · (moduleOptions path unit dashes lenient))
          (runIn fs faults input args) ∧
        ∀ css, problemsOf css (displayName path) = [] →
          Convert.moduleOfCss css (moduleOptions path unit dashes lenient) =
            Convert.moduleOfCss css ⟨unit, dashes, {}⟩) ∧
    (∀ path output, Request.ofArguments? args = some (.run (.toCss path output)) →
      Converts fs faults input path output Convert.cssOfJson (runIn fs faults input args)) ∧
    ∀ path, Request.ofArguments? args = some (.run (.check path)) →
      Checks fs faults input path (runIn fs faults input args) := by
  refine ⟨keeps_of_exit_ne_zero, ?_, ?_, ?_⟩
  · intro path unit dashes lenient output hrequest
    rw [runIn_of_command hrequest]
    refine ⟨converts_run_convert fs faults input path output _ fun _ => Nat.one_ne_zero, ?_⟩
    intro css hsilent
    exact Convert.moduleOfCss_of_silent hsilent unit dashes _ _
  · intro path output hrequest
    rw [runIn_of_command hrequest]
    exact converts_run_convert fs faults input path output _ fun _ => Nat.one_ne_zero
  · intro path hrequest
    rw [runIn_of_command hrequest]
    exact checks_run_check fs faults input path

/-! ## Runs in a directory -/

namespace Directory

/-- A directory with a style sheet and another file. -/
def ofSheet (css : String) : Directory :=
  ⟨[("a", css), ("b", "old")]⟩

theorem toFileSystem_ofSheet (css : String) : (ofSheet css).toFileSystem =
    ⟨surroundings ++ [("tmp/directory/a", .file css.toUTF8), ("tmp/directory/b", .file "old".toUTF8)],
      place⟩ := by
  have hsplit : splitPath "a" = ["a"] ∧ splitPath "b" = ["b"] := by decide +kernel
  have hdirectory : join ["tmp", "directory"] = "tmp/directory" := by decide +kernel
  have hfiles : join ["tmp", "directory", "a"] = "tmp/directory/a" ∧
      join ["tmp", "directory", "b"] = "tmp/directory/b" := by decide +kernel
  simp [toFileSystem, ofSheet, hsplit, addFile, place, hdirectory, hfiles, surroundings,
    Entries.insert]

/-- The names of the two files, the places that they lead to and what stands there. -/
theorem leads_ofSheet (css : String) :
    (namesOf "a" = .ok ["a"] ∧ (ofSheet css).toFileSystem.place ["a"] = .ok (place ++ ["a"]) ∧
      (ofSheet css).toFileSystem.node? (place ++ ["a"]) = some (.file css.toUTF8)) ∧
    namesOf "b" = .ok ["b"] ∧ (ofSheet css).toFileSystem.place ["b"] = .ok (place ++ ["b"]) ∧
      (ofSheet css).toFileSystem.node? (place ++ ["b"]) = some (.file "old".toUTF8) := by
  rw [toFileSystem_ofSheet]
  exact ⟨⟨by decide +kernel, FileSystem.place_singleton rfl rfl (by decide) rfl, rfl⟩,
    by decide +kernel, FileSystem.place_singleton rfl rfl (by decide) rfl, rfl⟩

theorem read_ofSheet (css : String) : (ofSheet css).toFileSystem.read "a" = .ok css.toUTF8 ∧
    (ofSheet css).toFileSystem.read "b" = .ok "old".toUTF8 := by
  obtain ⟨⟨hnames, hplace, hnode⟩, hnames', hplace', hnode'⟩ := leads_ofSheet css
  exact ⟨FileSystem.read_eq_ok_iff.2 ⟨_, _, hnames, hplace, .inl hnode⟩,
    FileSystem.read_eq_ok_iff.2 ⟨_, _, hnames', hplace', .inl hnode'⟩⟩

theorem given_ofSheet (css : String) (input : ByteArray) :
    (ofSheet css).toFileSystem.given {} input "a" = .ok css := by
  have hread : (ofSheet css).toFileSystem.given {} input "a" =
      (ofSheet css).toFileSystem.read "a" >>= textOf := rfl
  rw [hread, (read_ofSheet css).1]
  exact textOf_toUTF8 css

theorem target_ofSheet (css : String) :
    (ofSheet css).toFileSystem.target "a" = .ok (.file ["tmp", "directory", "a"]) ∧
      (ofSheet css).toFileSystem.target "b" = .ok (.file ["tmp", "directory", "b"]) := by
  obtain ⟨⟨hnames, hplace, hnode⟩, hnames', hplace', hnode'⟩ := leads_ofSheet css
  exact ⟨FileSystem.target_eq_file_iff.2
      ⟨_, hnames, rfl, hplace, FileSystem.takesFile_of_node? hnode⟩,
    FileSystem.target_eq_file_iff.2
      ⟨_, hnames', rfl, hplace', FileSystem.takesFile_of_node? hnode'⟩⟩

end Directory

/-- A style sheet is written over by its module. -/
theorem main_all_or_nothing_over_input :
    ∃ text, Convert.moduleOfCss ".a\x7bb:c\x7d" ⟨none, false, {}⟩ = .ok text ∧
      (runIn (Directory.ofSheet ".a\x7bb:c\x7d").toFileSystem {} .empty
        ["to-jss", "a", "-o", "a"]).1.exit = 0 ∧
      (runIn (Directory.ofSheet ".a\x7bb:c\x7d").toFileSystem {} .empty
        ["to-jss", "a", "-o", "a"]).2.printed = .empty ∧
      (Directory.ofSheet ".a\x7bb:c\x7d").toFileSystem.Replaces "a" text.toUTF8
        (runIn (Directory.ofSheet ".a\x7bb:c\x7d").toFileSystem {} .empty
          ["to-jss", "a", "-o", "a"]).2.files := by
  have hrequest : Request.ofArguments? ["to-jss", "a", "-o", "a"] =
      some (.run (.toModule "a" none false false (some "a"))) := by decide +kernel
  have hsilent : problemsOf ".a\x7bb:c\x7d" (displayName "a") = [] := by decide +kernel
  have hsome : (Convert.moduleOfCss ".a\x7bb:c\x7d"
      (moduleOptions "a" none false false)).toOption.isSome = true := by decide +kernel
  have hgiven := Directory.given_ofSheet ".a\x7bb:c\x7d" .empty
  have htarget := (Directory.target_ofSheet ".a\x7bb:c\x7d").1
  have hopened : (Directory.ofSheet ".a\x7bb:c\x7d").toFileSystem.opened {} (some "a") =
      .ok (some (.file ["tmp", "directory", "a"])) := opened_of_target rfl htarget
  obtain ⟨-, hmodule, -, -⟩ := main_all_or_nothing
    (Directory.ofSheet ".a\x7bb:c\x7d").toFileSystem {} .empty ["to-jss", "a", "-o", "a"]
  obtain ⟨hconverts, hunnamed⟩ := hmodule _ _ _ _ _ hrequest
  cases htext : Convert.moduleOfCss ".a\x7bb:c\x7d" (moduleOptions "a" none false false) with
  | error p =>
    rw [htext] at hsome
    cases hsome
  | ok text =>
    have hexit := hconverts.exit_eq_zero_iff.2 ⟨_, text, _, hgiven, htext, hopened, rfl⟩
    obtain ⟨css, result, hcss, hresult, hhas⟩ := hconverts.has hexit
    obtain rfl := Except.ok.inj (hgiven.symm.trans hcss)
    rw [hunnamed _ hsilent] at hresult
    refine ⟨result, hresult, hexit, ?_⟩
    rcases hhas with ⟨place, -, hprinted, hreplaces⟩ | ⟨device, hdevice, -⟩
    · exact ⟨hprinted, hreplaces⟩
    · rw [htarget] at hdevice
      cases hdevice

/-- A result that goes to a file may come out on standard output, where the path leads there.  And a run
that fails may leave a file empty that was not, where a disk is full. -/
theorem not_all_or_nothing :
    ((mainIn ⟨[]⟩ ".a\x7bb:c\x7d" ["to-jss", "-", "-o", "/dev/stdout"]).1.exit = 0 ∧
      (mainIn ⟨[]⟩ ".a\x7bb:c\x7d" ["to-jss", "-", "-o", "/dev/stdout"]).1.stdout ≠ "") ∧
    ∃ faults : Faults, faults.opening = (fun _ => none) ∧
      (runIn (Directory.ofSheet ".a\x7bb:c\x7d").toFileSystem faults .empty
        ["to-jss", "a", "-o", "b"]).1.exit ≠ 0 ∧
      (Directory.ofSheet ".a\x7bb:c\x7d").toFileSystem.read "b" = .ok "old".toUTF8 ∧
      (runIn (Directory.ofSheet ".a\x7bb:c\x7d").toFileSystem faults .empty
        ["to-jss", "a", "-o", "b"]).2.files.read "b" = .ok .empty := by
  have hmodule : ∀ path ∈ ["-", "a"], ∃ result, result ≠ "" ∧
      Convert.moduleOfCss ".a\x7bb:c\x7d" (moduleOptions path none false false) = .ok result := by
    intro path hpath
    have hsome : ∀ path ∈ ["-", "a"], (Convert.moduleOfCss ".a\x7bb:c\x7d"
        (moduleOptions path none false false)).toOption.map (·.isEmpty) = some false :=
      List.forall_mem_cons.2 ⟨by decide +kernel, List.forall_mem_singleton.2 (by decide +kernel)⟩
    have hresult := hsome path hpath
    cases hmodule : Convert.moduleOfCss ".a\x7bb:c\x7d" (moduleOptions path none false false) with
    | error p =>
      rw [hmodule] at hresult
      cases hresult
    | ok result =>
      rw [hmodule] at hresult
      refine ⟨result, ?_, rfl⟩
      rintro rfl
      cases hresult
  constructor
  · have hrequest : Request.ofArguments? ["to-jss", "-", "-o", "/dev/stdout"] =
        some (.run (.toModule "-" none false false (some "/dev/stdout"))) := by decide +kernel
    have hgiven : (Directory.toFileSystem ⟨[]⟩).given {} (".a\x7bb:c\x7d".toUTF8) "-" =
        .ok ".a\x7bb:c\x7d" := given_standardInput rfl _
    have hopened : (Directory.toFileSystem ⟨[]⟩).opened {} (some "/dev/stdout") =
        .ok (some (.device { isOutput := true })) := opened_of_target rfl rfl
    obtain ⟨result, hne, hresult⟩ := hmodule "-" List.mem_cons_self
    have hdelivered : World.deliver ⟨Directory.toFileSystem ⟨[]⟩, .empty⟩
        (some (.device { isOutput := true })) result.toUTF8 =
          ⟨Directory.toFileSystem ⟨[]⟩, result.toUTF8⟩ :=
      congrArg (World.mk _) ByteArray.empty_append
    unfold mainIn
    rw [runIn_of_module hrequest hgiven hresult hopened]
    refine ⟨rfl, ?_⟩
    change (textOf (World.deliver _ _ result.toUTF8).printed).toOption.getD "" ≠ ""
    rw [hdelivered, textOf_toUTF8]
    exact hne
  · have hrequest : Request.ofArguments? ["to-jss", "a", "-o", "b"] =
        some (.run (.toModule "a" none false false (some "b"))) := by decide +kernel
    let full : Faults := { writing := fun _ => some ⟨0, .other "No space left on device"⟩ }
    have hgiven : (Directory.ofSheet ".a\x7bb:c\x7d").toFileSystem.given full .empty "a" =
        .ok ".a\x7bb:c\x7d" := Directory.given_ofSheet _ _
    have htarget := (Directory.target_ofSheet ".a\x7bb:c\x7d").2
    have hopened : (Directory.ofSheet ".a\x7bb:c\x7d").toFileSystem.opened full (some "b") =
        .ok (some (.file ["tmp", "directory", "b"])) := opened_of_target rfl htarget
    obtain ⟨result, -, hresult⟩ := hmodule "a" (List.mem_cons_of_mem _ List.mem_cons_self)
    have hrun := runIn_of_module hrequest hgiven hresult hopened
    have hempty : result.toUTF8.extract 0 0 = .empty := ByteArray.extract_same
    refine ⟨full, rfl, ?_, (Directory.read_ofSheet _).2, ?_⟩
    · rw [hrun]
      exact Nat.one_ne_zero
    · rw [hrun, ← hempty]
      exact (FileSystem.replaces_put htarget _).read_eq

end Restyle.Cli
