import Mathlib.Data.List.TakeDrop
import Mathlib.Data.List.TakeWhile
import LRZero.Proofs.ErrorLines
import LRZero.Proofs.GrammarFiles
import LRZero.Proofs.LeastSets

/-!
# Runs on one file

A run on a file comes to one of three ends.  Where reading the file yields a
grammar, the analysis is printed, and nothing behind the reader can fail
(`Grammar.faultless`).  Where the file cannot be opened or its text is refused,
nothing is printed but the log and a line that starts with `error: `.  The third
end is a failure that the program does not take care of, and the bytes of the
file lead there exactly when they are no text.

Main statement: `run_on_file`.
-/

namespace LRZero

namespace Grammar

/-! ## Nothing fails behind the reader -/

/-- The sets and the states of the grammar are found without a fault: no pass
looks up a missing key, and no item of a state lacks what it is asked for. -/
structure Faultless (g : Grammar) : Prop where
  first : ∀ t ∈ g.firstKeys :: g.firstPasses,
    Inclusion.pass? true g.firstSystem t = .ok (Inclusion.pass g.firstSystem t)
  follow : ∀ t ∈ g.followKeys :: g.followPasses,
    Inclusion.pass? false (g.followSystem g.first) t =
      .ok (Inclusion.pass (g.followSystem g.first) t)
  start : (g.closure? ⟨0, g.itemsFor g.start⟩).1 = .ok g.startState
  symbols : ∀ s ∈ g.collection.states, s.symbols = .ok s.nextSymbols
  goto : ∀ s ∈ g.collection.states, ∀ x number,
    (g.goto? s (some x) number).1 = .ok (g.goto s x number)

theorem faultless (g : Grammar) : g.Faultless where
  first := Inclusion.pass?_of_mem_passes (answered_first g)
  follow := Inclusion.pass?_of_mem_passes (answered_follow g)
  start := by
    have hwithin : g.Within ⟨0, g.itemsFor g.start⟩ := fun _ => itemsFor_subset
    rw [closure?_eq_ok hwithin.inBody]
    rfl
  symbols s hs := State.symbols_eq_ok (within_collection s hs).inBody
  goto s hs x number := by rw [goto?_eq_ok (within_collection s hs).inBody]

end Grammar

namespace CommandLine

/-! ## Arguments -/

/-- An argument that turns something on. -/
def IsSwitch (s : String) : Prop := s = "-v" ∨ s = "--verbose" ∨ s = "--strict"

instance (s : String) : Decidable (IsSwitch s) := inferInstanceAs (Decidable (_ ∨ _ ∨ _))

/-- What some switches and one file ask for. -/
def Options.ofSwitches (switches : List String) (file : String) : Options :=
  ⟨file, decide ("-v" ∈ switches ∨ "--verbose" ∈ switches), decide ("--strict" ∈ switches), none⟩

/-- The arguments are some switches and the name of one file.  Behind two dashes
any text is a name. -/
inductive Names (file : String) : List String → List String → Prop
  | between (before after : List String) : (∀ s ∈ before ++ after, IsSwitch s) →
      beginsWith "-" file = false → Names file (before ++ after) (before ++ file :: after)
  | behindDashes {switches : List String} : (∀ s ∈ switches, IsSwitch s) →
      Names file switches (switches ++ ["--", file])

/-- What a switch is by itself. -/
def switchToken (s : String) : Token :=
  .option (if s = "--strict" then .strict else .verbose) (isLongName s) none

theorem ofArgument_switch {s : String} (h : IsSwitch s) :
    Token.ofArgument s = .ok (switchToken s) := by
  rcases h with rfl | rfl | rfl <;> rfl

theorem ofArgument_plain {s : String} (h : beginsWith "-" s = false) :
    Token.ofArgument s = .ok (.plain s) := by
  rw [Token.ofArgument, h]
  rfl

theorem mapM_switches : ∀ {ss : List String}, (∀ s ∈ ss, IsSwitch s) →
    ss.mapM Token.ofArgument = .ok (ss.map switchToken)
  | [], _ => rfl
  | s :: ss, h => by
    rw [List.mapM_cons, ofArgument_switch (h s List.mem_cons_self),
      mapM_switches fun t ht => h t (List.mem_cons_of_mem _ ht)]
    rfl

/-- What has been found, with some switches more. -/
def Found.turnOn (found : Found) (ss : List String) : Found :=
  { found with
    verbose := found.verbose || decide ("-v" ∈ ss ∨ "--verbose" ∈ ss)
    strict := found.strict || decide ("--strict" ∈ ss) }

theorem Found.turnOn_cons (found : Found) (s : String) (ss : List String) :
    (found.turnOn [s]).turnOn ss = found.turnOn (s :: ss) := by
  simp [Found.turnOn, Bool.or_assoc, Bool.or_left_comm]

theorem scan_flag (flag : Flag) {found found' : Found} (hvalue : flag.takesValue = false)
    (htake : found.take flag = .ok found') (last isLong : Bool) (rest : List Token) :
    found.scan last (.option flag isLong none :: rest) = found'.scan false rest := by
  -- a name right behind the flag would be its value, if it took one
  by_cases hplain : ∃ value rest', rest = .plain value :: rest'
  · obtain ⟨value, rest', rfl⟩ := hplain
    rw [Found.scan.eq_5, hvalue, htake]
    rfl
  · rw [Found.scan.eq_6 _ _ _ _ _ fun value rest' h => hplain ⟨value, rest', h⟩, hvalue, htake]
    rfl

theorem scan_switch {s : String} (h : IsSwitch s) (found : Found) (last : Bool) (rest : List Token) :
    found.scan last (switchToken s :: rest) = (found.turnOn [s]).scan false rest := by
  rcases h with rfl | rfl | rfl
  · exact scan_flag .verbose rfl (by simp [Found.take, Found.turnOn]) last _ rest
  · exact scan_flag .verbose rfl (by simp [Found.take, Found.turnOn]) last _ rest
  · exact scan_flag .strict rfl (by simp [Found.take, Found.turnOn]) last _ rest

/-- Scanning some switches is turning them on. -/
theorem scan_switches (rest : List Token) : ∀ {ss : List String}, (∀ s ∈ ss, IsSwitch s) →
    ∀ (found : Found) (last : Bool), found.scan last (ss.map switchToken ++ rest) =
      (found.turnOn ss).scan (last && ss.isEmpty) rest
  | [], _, found, last => by
    rw [List.isEmpty_nil, Bool.and_true]
    simp [Found.turnOn]
  | s :: ss, h, found, last => by
    have ih := scan_switches rest fun t ht => h t (List.mem_cons_of_mem _ ht)
    rw [List.map_cons, List.cons_append, scan_switch (h s List.mem_cons_self), ih, Found.turnOn_cons,
      List.isEmpty_cons, Bool.and_false, Bool.false_and]

theorem ne_dashes_of_isSwitch {s : String} (h : IsSwitch s) : s ≠ "--" := by
  rcases h with rfl | rfl | rfl <;> decide

/-- Switches before and behind a file. -/
theorem parse_switches {before after : List String} {file : String}
    (hswitches : ∀ s ∈ before ++ after, IsSwitch s) (hfile : beginsWith "-" file = false) :
    parse (before ++ file :: after) = .ok (.ofSwitches (before ++ after) file) := by
  have hbefore : ∀ s ∈ before, IsSwitch s := fun s hs => hswitches s (List.mem_append_left _ hs)
  have hafter : ∀ s ∈ after, IsSwitch s := fun s hs => hswitches s (List.mem_append_right _ hs)
  have hdashes : ∀ s ∈ before ++ file :: after, decide (s ≠ "--") := by
    intro s hs
    rw [decide_eq_true_eq]
    rcases List.mem_append.mp hs with hs | hs
    · exact ne_dashes_of_isSwitch (hbefore s hs)
    · rcases List.mem_cons.mp hs with rfl | hs
      · rintro rfl
        cases hfile
      · exact ne_dashes_of_isSwitch (hafter s hs)
  have htokens : (before ++ file :: after).mapM Token.ofArgument =
      .ok (before.map switchToken ++ .plain file :: (after.map switchToken ++ [])) := by
    rw [List.mapM_append, mapM_switches hbefore, List.mapM_cons, ofArgument_plain hfile,
      mapM_switches hafter, List.append_nil]
    rfl
  rw [parse, List.span_eq_takeWhile_dropWhile, List.takeWhile_eq_self_iff.mpr hdashes,
    List.dropWhile_eq_nil_iff.mpr hdashes]
  dsimp only
  rw [htokens]
  dsimp only
  rw [scan_switches _ hbefore, Found.scan, scan_switches _ hafter, Found.scan]
  simp [Found.turnOn, Found.takeName, Found.options, Options.ofSwitches, Bool.or_assoc,
    Bool.or_left_comm]

/-- Behind two dashes any text is the name of a file. -/
theorem parse_dashes {switches : List String} (hswitches : ∀ s ∈ switches, IsSwitch s)
    (file : String) : parse (switches ++ ["--", file]) = .ok (.ofSwitches switches file) := by
  have hdashes : ∀ s ∈ switches, decide (s ≠ "--") :=
    fun s hs => decide_eq_true (ne_dashes_of_isSwitch (hswitches s hs))
  have hspan : (switches ++ ["--", file]).span (fun s => decide (s ≠ "--")) =
      (switches, ["--", file]) := by
    rw [List.span_eq_takeWhile_dropWhile, List.takeWhile_append_of_pos hdashes,
      List.dropWhile_append_of_pos hdashes]
    simp
  have hscan : Found.scan ⟨none, false, false, none, []⟩ false (switches.map switchToken) =
      .ok (Found.turnOn ⟨none, false, false, none, []⟩ switches, false) := by
    rw [← List.append_nil (switches.map _), scan_switches _ hswitches, Found.scan, Bool.false_and]
  rw [parse, hspan]
  dsimp only
  rw [mapM_switches hswitches]
  dsimp only
  rw [hscan]
  simp [Found.turnOn, Found.names, Found.options, Options.ofSwitches]

theorem Names.parse {file : String} {switches arguments : List String}
    (h : Names file switches arguments) : parse arguments = .ok (.ofSwitches switches file) := by
  cases h with
  | between before after hswitches hfile => exact parse_switches hswitches hfile
  | behindDashes hswitches => exact parse_dashes hswitches file

/-! ## How a run ends -/

/-- The run ends with a failure that the program does not take care of. -/
def Outcome.Escapes : Outcome → Prop
  | .message .. => False
  | .report .. => False
  | .undecodable _ => True
  | .endedName => True

/-- Reading a file with some content yields a grammar. -/
def Yields (strict : Bool) (content : Except OpenFault ByteArray) (a : Analysed) : Prop :=
  ∃ bytes outcome, content = .ok bytes ∧ readBytes strict bytes = .ok outcome ∧
    outcome.result = .ok a

/-- How a run on a file with some content ends, and why. -/
inductive Ends (options : Options) : Except OpenFault ByteArray → Outcome → Prop
  | misnamed {content : Except OpenFault ByteArray} :
      '\x00' ∈ options.file.toList → Ends options content .endedName
  | unopened {fault : OpenFault} : '\x00' ∉ options.file.toList →
      Ends options (.error fault) (.message 1 "" (errorText (fault.message options.file)))
  | undecoded {bytes : ByteArray} {e : Text.DecodeError} : '\x00' ∉ options.file.toList →
      readBytes options.strict bytes = .error e → Ends options (.ok bytes) (.undecodable e)
  | refused {bytes : ByteArray} {outcome : ReadOutcome} {e : ReadError} :
      '\x00' ∉ options.file.toList → readBytes options.strict bytes = .ok outcome →
      outcome.result = .error e →
      Ends options (.ok bytes)
        (.message 1 "" (logText options.verbose outcome.log ++ errorText e.message))
  | accepted {bytes : ByteArray} {outcome : ReadOutcome} {a : Analysed} :
      '\x00' ∉ options.file.toList → readBytes options.strict bytes = .ok outcome →
      outcome.result = .ok a →
      Ends options (.ok bytes) (.report a (logText options.verbose outcome.log))

variable {options : Options} {content : Except OpenFault ByteArray} {outcome : Outcome}

theorem ends_respond (options : Options) (content : Except OpenFault ByteArray) :
    Ends options content (respond options content) := by
  unfold respond
  split
  · next hname => exact .misnamed hname
  next hname =>
  split
  · exact .unopened hname
  split
  · next hread => exact .undecoded hname hread
  next hread =>
  dsimp only
  split
  · next hresult => exact .refused hname hread hresult
  · next hresult => exact .accepted hname hread hresult

/-- A failure escapes for a name that no file can have and for bytes that are
no text. -/
theorem Ends.escapes_iff (h : Ends options content outcome) :
    outcome.Escapes ↔ '\x00' ∈ options.file.toList ∨
      ∃ bytes, content = .ok bytes ∧ ¬ ∃ cs : List Char, bytes = cs.utf8Encode := by
  have hnone : ∀ {bytes : ByteArray}, '\x00' ∉ options.file.toList →
      (∃ cs : List Char, bytes = cs.utf8Encode) →
      ¬ ('\x00' ∈ options.file.toList ∨ ∃ b, (.ok bytes : Except OpenFault ByteArray) = .ok b ∧
        ¬ ∃ cs : List Char, b = cs.utf8Encode) := by
    rintro bytes hname hbytes (hnamed | ⟨b, he, hb⟩)
    · exact hname hnamed
    · cases he
      exact hb hbytes
  cases h with
  | misnamed hname => exact ⟨fun _ => .inl hname, fun _ => trivial⟩
  | unopened hname =>
    refine ⟨False.elim, ?_⟩
    rintro (hnamed | ⟨_, he, -⟩)
    · exact hname hnamed
    · cases he
  | undecoded hname hread =>
    exact ⟨fun _ => .inr ⟨_, rfl, exists_readBytes_eq_error_iff.mp ⟨_, hread⟩⟩, fun _ => trivial⟩
  | refused hname hread _ => exact ⟨False.elim, hnone hname (exists_utf8Encode hread)⟩
  | accepted hname hread _ => exact ⟨False.elim, hnone hname (exists_utf8Encode hread)⟩

theorem Ends.eq_report (h : Ends options content outcome) (hescapes : ¬ outcome.Escapes)
    {a : Analysed} (ha : Yields options.strict content a) : ∃ log, outcome = .report a log := by
  obtain ⟨bytes, read, rfl, hbytes, hresult⟩ := ha
  cases h with
  | misnamed => exact absurd trivial hescapes
  | undecoded => exact absurd trivial hescapes
  | refused _ hread hrefused =>
    cases hbytes.symm.trans hread
    cases hresult.symm.trans hrefused
  | accepted _ hread haccepted =>
    cases hbytes.symm.trans hread
    cases hresult.symm.trans haccepted
    exact ⟨_, rfl⟩

theorem Ends.eq_message (h : Ends options content outcome) (hescapes : ¬ outcome.Escapes)
    (hnone : ¬ ∃ a, Yields options.strict content a) :
    ∃ errors reason, outcome = .message 1 "" errors ∧
      (Text.lines errors).getLast? = some ("error: " ++ reason) := by
  cases h with
  | misnamed => exact absurd trivial hescapes
  | @unopened fault =>
    have hempty : Text.Whole "" := .inl rfl
    have hlast := last_line_of_error hempty (oneLine_of_openFault fault options.file)
    rw [String.empty_append] at hlast
    exact ⟨_, _, rfl, hlast⟩
  | undecoded => exact absurd trivial hescapes
  | refused _ hread hrefused =>
    obtain ⟨text, rfl⟩ := exists_eq_read hread
    exact ⟨_, _, rfl, last_line_of_error (whole_logText _ _) (oneLine_of_read hrefused)⟩
  | accepted _ hread haccepted => exact absurd ⟨_, _, _, rfl, hread, haccepted⟩ hnone

theorem Ends.code_iff (h : Ends options content outcome) (hescapes : ¬ outcome.Escapes) :
    (outcome.code = 0 ↔ ∃ a, Yields options.strict content a) ∧
      (outcome.code = 1 ↔ ¬ ∃ a, Yields options.strict content a) := by
  by_cases hyields : ∃ a, Yields options.strict content a
  · have hcode : outcome.code = 0 := by
      obtain ⟨a, ha⟩ := hyields
      obtain ⟨log, rfl⟩ := h.eq_report hescapes ha
      rfl
    simp [hcode, hyields]
  · have hcode : outcome.code = 1 := by
      obtain ⟨errors, reason, rfl, -⟩ := h.eq_message hescapes hyields
      rfl
    simp [hcode, hyields]

theorem run_of_parse {arguments : List String} (h : parse arguments = .ok options)
    (files : String → Except OpenFault ByteArray) :
    run arguments files = respond options (files options.file) := by
  rw [run, h]

/-- A run on one file, with any of the switches.  A failure escapes exactly if
the file holds the bytes of no text or no file can have its name.  Otherwise the
code is 0 where reading yields a grammar, and 1 where it yields none; then
nothing is printed but errors, and their last line starts with `error: `.  The
analysis, which is there before strict reading refuses a grammar, is without a
fault for all grammars. -/
theorem run_on_file {file : String} {switches arguments : List String}
    (h : Names file switches arguments) (files : String → Except OpenFault ByteArray) :
    ((run arguments files).Escapes ↔ '\x00' ∈ file.toList ∨
      ∃ bytes, files file = .ok bytes ∧ ¬ ∃ cs : List Char, bytes = cs.utf8Encode) ∧
    (¬ (run arguments files).Escapes →
      ((run arguments files).code = 0 ↔
        ∃ a, Yields (decide ("--strict" ∈ switches)) (files file) a) ∧
      ((run arguments files).code = 1 ↔
        ¬ ∃ a, Yields (decide ("--strict" ∈ switches)) (files file) a) ∧
      (∀ a, Yields (decide ("--strict" ∈ switches)) (files file) a →
        ∃ log, run arguments files = .report a log) ∧
      ((run arguments files).code = 1 →
        ∃ errors reason, run arguments files = .message 1 "" errors ∧
          (Text.lines errors).getLast? = some ("error: " ++ reason))) ∧
    ∀ g : Grammar, g.Faultless := by
  have hends : Ends (.ofSwitches switches file) (files file) (run arguments files) := by
    rw [run_of_parse h.parse]
    exact ends_respond _ _
  refine ⟨hends.escapes_iff, fun hescapes => ?_, Grammar.faultless⟩
  obtain ⟨hzero, hone⟩ := hends.code_iff hescapes
  exact ⟨hzero, hone, fun a ha => hends.eq_report hescapes ha,
    fun hcode => hends.eq_message hescapes (hone.mp hcode)⟩

/-- With a switch on either side of its name, a file that is not there gives
code 1, and a file that holds a grammar gives code 0. -/
theorem run_on_file_named :
    Names "g.txt" ["-v", "--strict"] ["-v", "g.txt", "--strict"] ∧
      (run ["-v", "g.txt", "--strict"] fun _ => .error .missing).code = 1 ∧
      (run ["-v", "g.txt", "--strict"] fun _ => .ok "A : a".toList.utf8Encode).code = 0 := by
  have hswitches : ∀ s ∈ ["-v"] ++ ["--strict"], IsSwitch s := by decide
  have hnames : Names "g.txt" ["-v", "--strict"] ["-v", "g.txt", "--strict"] :=
    .between ["-v"] ["--strict"] hswitches rfl
  have hname : '\x00' ∉ "g.txt".toList := by decide
  refine ⟨hnames, ?_, ?_⟩
  · obtain ⟨hescapes, hends, -⟩ := run_on_file hnames fun _ => .error .missing
    refine (hends fun h => ?_).2.1.mpr ?_
    · rcases hescapes.mp h with h | ⟨_, he, -⟩
      · exact hname h
      · cases he
    · rintro ⟨_, _, _, he, -⟩
      cases he
  · obtain ⟨hescapes, hends, -⟩ := run_on_file hnames fun _ => .ok "A : a".toList.utf8Encode
    refine (hends fun h => ?_).1.mpr ?_
    · rcases hescapes.mp h with h | ⟨_, he, hbytes⟩
      · exact hname h
      · cases he
        exact hbytes ⟨_, rfl⟩
    · have hrules : (Reading.ofText true "A : a").rules = [⟨"A", ["a"]⟩] := by decide +kernel
      have hg : Grammar.ofRules? (Reading.ofText true "A : a").rules =
          some ⟨"A", .ofList ["a"], .ofList ["A"], [⟨"A", ["a"]⟩]⟩ := by rw [hrules]; rfl
      have hread : (read true "A : a").result = .ok ⟨_, Grammar.analysis _⟩ :=
        read_eq_ok_iff.mpr ⟨by decide +kernel, hg, rfl, fun _ => by decide⟩
      exact ⟨_, _, _, rfl, readBytes_utf8Encode _ _, hread⟩

/-- The first byte of the file starts no character, and the failure escapes. -/
theorem run_undecodable :
    ∃ e, run ["g.txt"] (fun _ => .ok ⟨#[0xff]⟩) = .undecodable e ∧
      (run ["g.txt"] fun _ => .ok ⟨#[0xff]⟩).Escapes ∧
      e.message = "'utf-8' codec can't decode byte 0xff in position 0: invalid start byte" := by
  have hinvalid : ¬ (⟨#[0xff]⟩ : ByteArray).IsValidUTF8 := by decide +kernel
  have hlist : (⟨#[0xff]⟩ : ByteArray).toList = [0xff] := by decide +kernel
  have hdecode : Text.decode ⟨#[0xff]⟩ = .error ⟨0, 0, 0xff, .startByte⟩ := by
    rw [Text.decode, String.fromUTF8?, dif_neg hinvalid, hlist]
    rfl
  have hread : readBytes false ⟨#[0xff]⟩ = .error ⟨0, 0, 0xff, .startByte⟩ := by
    rw [readBytes, hdecode]
    rfl
  have hrun : run ["g.txt"] (fun _ => .ok ⟨#[0xff]⟩) = .undecodable ⟨0, 0, 0xff, .startByte⟩ := by
    have hparse : parse ["g.txt"] = .ok ⟨"g.txt", false, false, none⟩ := rfl
    have hname : '\x00' ∉ "g.txt".toList := by decide
    rw [run_of_parse hparse, respond, if_neg hname]
    dsimp only
    rw [hread]
  exact ⟨_, hrun, by rw [hrun]; trivial, by decide +kernel⟩

end CommandLine

end LRZero
