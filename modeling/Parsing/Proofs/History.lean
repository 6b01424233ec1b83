/-
Parsing.Proofs.History — a session as a function of the lines before.

A session goes from line to line with a count and a grammar in hand.  Both
can be read off the lines that came before: the count is how many of them
were parsed, and the grammar is the one that the latest of them selected
(`Session.afterLines`).  So what is written about a line is a function of
that line and of those before it, and a whole transcript has a closed form
(`Session.script`).

`respond_ofLine` is the step: what a line that does not leave makes of a
session, and what is written about it.  `transcript_append` carries it along
any number of lines.  What a line asks for is said by how it looks without
the blanks at its ends (`Session.Asks`); its line end is among them.
-/
import Mathlib
import Parsing.Session
import Parsing.Proofs.Lines
import Parsing.Proofs.Matching

namespace Parsing

/-! ## Trimming -/

namespace Text

variable {accepts : Char → Bool}

theorem dropLastWhile_append {front back : List Char} (h : ∀ c ∈ back, accepts c = true) :
    dropLastWhile accepts (front ++ back) = dropLastWhile accepts front := by
  have hback : ∀ c ∈ back.reverse, accepts c = true := by simpa using h
  rw [dropLastWhile, List.reverse_append, List.dropWhile_append_of_pos hback, dropLastWhile]

/-- What is left out are accepted characters at the end. -/
theorem exists_dropLastWhile_append (accepts : Char → Bool) (chars : List Char) :
    ∃ back, chars = dropLastWhile accepts chars ++ back ∧ ∀ c ∈ back, accepts c = true := by
  refine ⟨(chars.reverse.takeWhile accepts).reverse, ?_, fun c hc => ?_⟩
  · rw [dropLastWhile, ← List.reverse_append, List.takeWhile_append_dropWhile,
      List.reverse_reverse]
  · exact List.all_eq_true.1 List.all_takeWhile c (List.mem_reverse.1 hc)

theorem isBlank_of_isLineEnd {c : Char} (h : isLineEnd c = true) : isBlank c = true := by
  simp only [isLineEnd, Bool.or_eq_true, beq_iff_eq] at h
  rcases h with rfl | rfl <;> decide

/-- A line end is blank, so it does not matter to the trimmed text. -/
theorem trimmed_withoutLineEnd (line : String) : trimmed (withoutLineEnd line) = trimmed line := by
  obtain ⟨back, hline, hback⟩ := exists_dropLastWhile_append isLineEnd line.toList
  have hblank : ∀ c ∈ back, isBlank c = true := fun c hc => isBlank_of_isLineEnd (hback c hc)
  have hdrop : back.dropWhile isBlank = [] := by simpa using hblank
  simp only [trimmed, withoutLineEnd, String.toList_ofList]
  generalize dropLastWhile isLineEnd line.toList = front at hline
  rw [hline, List.dropWhile_append]
  split
  · rename_i hempty
    rw [hdrop, List.isEmpty_iff.1 hempty]
  · rw [dropLastWhile_append hblank]

theorem copy_drop_append (u w : String) : ((u ++ w).drop u.length).copy = w := by
  apply String.toList_inj.1
  rw [String.toList_copy_drop, String.toList_append, ← String.length_toList, List.drop_left]

end Text

namespace Session

open Text

/-! ## What a line asks for -/

/-- The name of the grammar that a line asks for, if it asks for one: what
stands behind the first word, without the blanks at its ends. -/
def askedName? (line : String) : Option String :=
  (":grammar".toList.isPrefixOf? (trimmed line).toList).map fun name =>
    trimmed (String.ofList name)

/-- Whether a line is parsed: it is not blank, it does not leave, and it
asks for no grammar. -/
def isParsed (line : String) : Bool :=
  trimmed line != "" && trimmed line != "exit" && (askedName? line).isNone

theorem askedName?_eq_some_iff {line name : String} :
    askedName? line = some name ↔
      ∃ rest, trimmed line = ":grammar" ++ rest ∧ name = trimmed rest := by
  simp only [askedName?, Option.map_eq_some_iff, List.isPrefixOf?_eq_some_iff_append_eq]
  constructor
  · rintro ⟨rest, hrest, rfl⟩
    refine ⟨String.ofList rest, String.toList_inj.1 ?_, rfl⟩
    simpa using hrest.symm
  · rintro ⟨rest, hrest, rfl⟩
    exact ⟨rest.toList, by rw [hrest, String.toList_append], by rw [String.ofList_toList]⟩

/-- How a line looks that asks for a command. -/
inductive Asks (line : String) : Command → Prop where
  | skip (h : trimmed line = "") : Asks line .skip
  | leave (h : trimmed line = "exit") : Asks line .leave
  | select {name : String} (h : askedName? line = some name) : Asks line (.select name)
  | parse (h : isParsed line = true) : Asks line (.parse (withoutLineEnd line))

theorem askedName?_of_startsWith {line : String}
    (h : (trimmed line).startsWith selectWord = true) :
    askedName? line = some (trimmed ((trimmed line).drop selectWord.length).copy) := by
  obtain ⟨rest, hrest⟩ := startsWith_iff_exists_append.1 h
  refine askedName?_eq_some_iff.2 ⟨rest, hrest, ?_⟩
  rw [hrest, copy_drop_append]

theorem askedName?_of_not_startsWith {line : String}
    (h : (trimmed line).startsWith selectWord = false) : askedName? line = none := by
  rw [Option.eq_none_iff_forall_ne_some]
  intro name hname
  obtain ⟨rest, hrest, -⟩ := askedName?_eq_some_iff.1 hname
  have hselects := startsWith_iff_exists_append.2 ⟨rest, hrest⟩
  exact Bool.noConfusion (h.symm.trans hselects)

theorem asks_ofLine (line : String) : Asks line (Command.ofLine line) := by
  simp only [Command.ofLine, trimmed_withoutLineEnd]
  by_cases hblank : trimmed line = ""
  · rw [if_pos hblank]
    exact .skip hblank
  by_cases hleaves : trimmed line = leaveWord
  · rw [if_neg hblank, if_pos hleaves]
    exact .leave hleaves
  rw [if_neg hblank, if_neg hleaves]
  cases hselects : (trimmed line).startsWith selectWord with
  | true =>
    rw [if_pos rfl]
    exact .select (askedName?_of_startsWith hselects)
  | false =>
    have hnone := askedName?_of_not_startsWith hselects
    have hstays : trimmed line ≠ "exit" := hleaves
    rw [if_neg Bool.false_ne_true]
    exact .parse (by simp [isParsed, hblank, hnone, hstays])

theorem isParsed_of_askedName? {line name : String} (h : askedName? line = some name) :
    isParsed line = false := by
  simp [isParsed, h]

theorem askedName?_of_isParsed {line : String} (h : isParsed line = true) :
    askedName? line = none := by
  simp only [isParsed, Bool.and_eq_true, Option.isNone_iff_eq_none] at h
  exact h.2

/-- A line that is blank or leaves asks for no grammar. -/
theorem askedName?_eq_none {line : String} (h : trimmed line = "" ∨ trimmed line = "exit") :
    askedName? line = none := by
  have hblank : "".startsWith selectWord = false := by cbv
  have hleave : "exit".startsWith selectWord = false := by cbv
  refine askedName?_of_not_startsWith ?_
  rcases h with h | h
  · rwa [h]
  · rwa [h]

/-! ## What came before -/

/-- The grammar that a line selects, if it asks for one that there is. -/
def selected? (byName : String → Option Grammar) (line : String) : Option Grammar :=
  (askedName? line).bind byName

/-- How many of the lines are parsed. -/
def parsedCount (earlier : List String) : Nat :=
  earlier.countP isParsed

/-- The grammar that the latest of the lines selected; the first one if none
did. -/
def latestGrammar (byName : String → Option Grammar) (first : Grammar)
    (earlier : List String) : Grammar :=
  (earlier.reverse.findSome? (selected? byName)).getD first

/-- A session that started with `first`, after these lines. -/
def afterLines (byName : String → Option Grammar) (first : Grammar)
    (earlier : List String) : Session where
  grammar := latestGrammar byName first earlier
  parsed := parsedCount earlier

variable {byName : String → Option Grammar} {first : Grammar} {earlier : List String}
  {line : String}

theorem latestGrammar_nil : latestGrammar byName first [] = first := rfl

theorem latestGrammar_concat :
    latestGrammar byName first (earlier ++ [line]) =
      (selected? byName line).getD (latestGrammar byName first earlier) := by
  rw [latestGrammar, List.reverse_append, List.reverse_singleton, List.singleton_append,
    List.findSome?_cons]
  cases selected? byName line <;> rfl

theorem parsedCount_concat :
    parsedCount (earlier ++ [line]) = parsedCount earlier + if isParsed line then 1 else 0 := by
  simp [parsedCount, List.countP_append, List.countP_cons]

theorem afterLines_concat :
    afterLines byName first (earlier ++ [line]) =
      ⟨(selected? byName line).getD (latestGrammar byName first earlier),
        parsedCount earlier + if isParsed line then 1 else 0⟩ := by
  rw [afterLines, latestGrammar_concat, parsedCount_concat]

/-! ## One line -/

/-- What is written about a line that is parsed with the grammar, or that
asks for another. -/
def replies (byName : String → Option Grammar) (style : Style) (grammar : Grammar)
    (line : String) : List Piece :=
  match askedName? line with
  | some name => if byName name = none then [.unknownGrammar name] else []
  | none =>
      if isParsed line then
        (if style.verbose then [.timing] else [])
          ++ [.report ((grammar.run (withoutLineEnd line)).report style.asJson)]
      else []

theorem respond_of_leaves (style : Style) (session : Session) (h : trimmed line = "exit") :
    session.respond byName style (.ofLine line) = none := by
  have hnone : askedName? line = none := askedName?_eq_none (.inr h)
  have hasks := asks_ofLine line
  generalize Command.ofLine line = command at hasks
  cases hasks with
  | skip hblank => simp [hblank] at h
  | leave => rfl
  | select hname => simp [hnone] at hname
  | parse hparsed => simp [isParsed, h] at hparsed

/-- **The step.**  A line that does not leave turns a session after the lines
before it into one after that line too. -/
theorem respond_ofLine (style : Style) (h : trimmed line ≠ "exit") :
    (afterLines byName first earlier).respond byName style (.ofLine line) =
      some (afterLines byName first (earlier ++ [line]),
        replies byName style (latestGrammar byName first earlier) line) := by
  rw [afterLines_concat]
  have hasks := asks_ofLine line
  generalize Command.ofLine line = command at hasks
  cases hasks with
  | skip hblank =>
    have hnone := askedName?_eq_none (.inl hblank)
    simp [respond, afterLines, replies, selected?, isParsed, hblank, hnone]
  | leave hleave => exact absurd hleave h
  | @select name hname =>
    have hparsed := isParsed_of_askedName? hname
    cases hgrammar : byName name with
    | none => simp [respond, afterLines, replies, selected?, hname, hparsed, hgrammar]
    | some grammar => simp [respond, afterLines, replies, selected?, hname, hparsed, hgrammar]
  | parse hparsed =>
    have hnone := askedName?_of_isParsed hparsed
    simp [respond, afterLines, replies, selected?, hnone, hparsed]

/-! ## Many lines -/

/-- The prompts before the lines, and what is written about each. -/
def entries (byName : String → Option Grammar) (style : Style) (first : Grammar) :
    List String → List String → List Piece
  | _, [] => []
  | earlier, line :: lines =>
      .prompt (afterLines byName first earlier)
        :: (replies byName style (latestGrammar byName first earlier) line
          ++ entries byName style first (earlier ++ [line]) lines)

/-- **The run.**  Lines that do not leave turn a session into one after those
lines, whatever comes then. -/
theorem transcript_append (style : Style) {lines : List String}
    (h : ∀ line ∈ lines, trimmed line ≠ "exit") (rest : List (Option String)) :
    transcript byName style (afterLines byName first earlier) (lines.map some ++ rest) =
      (transcript byName style (afterLines byName first (earlier ++ lines)) rest).after
        (entries byName style first earlier lines) := by
  induction lines generalizing earlier with
  | nil => simp [entries, Transcript.after]
  | cons line lines ih =>
    obtain ⟨hline, hlines⟩ := List.forall_mem_cons.1 h
    have hrest := @ih (earlier ++ [line]) hlines
    simp only [List.append_assoc, List.singleton_append] at hrest
    simp only [List.map_cons, List.cons_append, transcript, respond_ofLine style hline, hrest,
      Transcript.after, entries, List.append_assoc]

theorem transcript_nil (style : Style) (session : Session) :
    transcript byName style session [] = ⟨[.prompt session, .farewell], .finished⟩ := rfl

/-- A line that leaves ends a session, whatever comes behind it. -/
theorem transcript_of_leaves (style : Style) (session : Session) (h : trimmed line = "exit")
    (rest : List (Option String)) :
    transcript byName style session (some line :: rest) = ⟨[.prompt session], .finished⟩ := by
  rw [transcript, respond_of_leaves style session h]

theorem entries_append (style : Style) (lines lines' : List String) :
    entries byName style first earlier (lines ++ lines') =
      entries byName style first earlier lines ++
        entries byName style first (earlier ++ lines) lines' := by
  induction lines generalizing earlier with
  | nil => simp [entries]
  | cons line lines ih => simp [entries, ih]

theorem replies_of_leaves (style : Style) (grammar : Grammar) (h : trimmed line = "exit") :
    replies byName style grammar line = [] := by
  have hnone : askedName? line = none := askedName?_eq_none (.inr h)
  simp [replies, hnone, isParsed, h]

/-- The lines that a session reads: those before the first that leaves, and
that one. -/
def linesRead (lines : List String) : List String :=
  lines.take (lines.findIdx (fun line => trimmed line == "exit") + 1)

theorem linesRead_eq_self {lines : List String} (h : ∀ line ∈ lines, trimmed line ≠ "exit") :
    linesRead lines = lines := by
  have hidx : lines.findIdx (fun line => trimmed line == "exit") = lines.length :=
    List.findIdx_eq_length.2 (by simpa using h)
  rw [linesRead, hidx]
  exact List.take_of_length_le (by omega)

theorem linesRead_append {before : List String} (hbefore : ∀ line ∈ before, trimmed line ≠ "exit")
    (h : trimmed line = "exit") (after : List String) :
    linesRead (before ++ line :: after) = before ++ [line] := by
  have hidx : before.findIdx (fun line => trimmed line == "exit") = before.length :=
    List.findIdx_eq_length.2 (by simpa using hbefore)
  simp [linesRead, List.findIdx_append, hidx, List.findIdx_cons, h, List.take_append]

/-- Lines do not leave, or there is a first one that does. -/
theorem leaves_cases (lines : List String) :
    (∀ line ∈ lines, trimmed line ≠ "exit") ∨
      ∃ before line after, lines = before ++ line :: after ∧ trimmed line = "exit" ∧
        ∀ line ∈ before, trimmed line ≠ "exit" := by
  cases hfind : lines.find? (fun line => trimmed line == "exit") with
  | none => exact .inl (by simpa using hfind)
  | some line =>
    obtain ⟨hline, before, after, rfl, hbefore⟩ := List.find?_eq_some_iff_append.1 hfind
    exact .inr ⟨before, line, after, rfl, by simpa using hline, by simpa using hbefore⟩

/-- The transcript over lines that are all text. -/
theorem transcript_map_some (style : Style) (first : Grammar) (lines : List String) :
    transcript byName style (start first) (lines.map some) =
      ⟨entries byName style first [] (linesRead lines) ++
        (if ∃ line ∈ lines, trimmed line = "exit" then []
          else [.prompt (afterLines byName first lines), .farewell]), .finished⟩ := by
  show transcript byName style (afterLines byName first []) (lines.map some) = _
  rcases leaves_cases lines with hstay | ⟨before, line, after, rfl, hline, hbefore⟩
  · have hnone : ¬ ∃ line ∈ lines, trimmed line = "exit" := by simpa using hstay
    have hrun := @transcript_append byName first [] style lines hstay []
    rw [List.append_nil, List.nil_append, transcript_nil] at hrun
    rw [hrun, linesRead_eq_self hstay, if_neg hnone]
    rfl
  · have hsome : ∃ l ∈ before ++ line :: after, trimmed l = "exit" := ⟨line, by simp, hline⟩
    have hrun :=
      @transcript_append byName first [] style before hbefore (some line :: after.map some)
    rw [List.nil_append, transcript_of_leaves style _ hline] at hrun
    rw [List.map_append, List.map_cons, hrun, linesRead_append hbefore hline, if_pos hsome,
      entries_append]
    simp [Transcript.after, entries, replies_of_leaves _ _ hline]

/-! ## The closed form -/

/-- The prompt after these lines, as it is written. -/
def promptText (byName : String → Option Grammar) (first : Grammar)
    (earlier : List String) : String :=
  "(" ++ toString (parsedCount earlier) ++ ") weft [" ++ (latestGrammar byName first earlier).name
    ++ "] | "

/-- What is written about a line: nothing if it is blank or leaves, or if it
asks for a grammar that there is; an error if it asks for one that there is
not; and else the report of a parse of the line without its line end. -/
def answer (byName : String → Option Grammar) (asJson : Bool) (grammar : Grammar)
    (line : String) : String :=
  if trimmed line = "" ∨ trimmed line = "exit" then ""
  else
    match askedName? line with
    | some name =>
        if byName name = none then "ERROR: unknown grammar '" ++ name ++ "'\n"
        else ""
    | none => (grammar.run (withoutLineEnd line)).report asJson ++ "\n"

/-- What a session writes over lines, as a function of the lines before each
of them.  If none of them leaves, the last prompt is answered for the
reader. -/
def script (byName : String → Option Grammar) (asJson : Bool) (first : Grammar)
    (lines : List String) : String :=
  let read := linesRead lines
  String.join (read.mapIdx fun k line =>
      promptText byName first (read.take k)
        ++ answer byName asJson (latestGrammar byName first (read.take k)) line)
    ++ if ∃ line ∈ lines, trimmed line = "exit" then ""
      else promptText byName first lines ++ "exit\n"

section Text

variable {asJson : Bool} {elapsed : Elapsed}

theorem join_singleton (text : String) : String.join [text] = text := by
  simp [String.join_cons]

theorem join_replies (grammar : Grammar) (line : String) :
    String.join ((replies byName ⟨asJson, false⟩ grammar line).map (Piece.text elapsed)) =
      answer byName asJson grammar line := by
  unfold answer
  split
  · rename_i h
    have hparsed : isParsed line = false := by rcases h with h | h <;> simp [isParsed, h]
    simp [replies, askedName?_eq_none h, hparsed, String.join_nil]
  · rename_i h
    obtain ⟨hblank, hleave⟩ := not_or.1 h
    cases hname : askedName? line with
    | none =>
      have hparsed : isParsed line = true := by simp [isParsed, hname, hblank, hleave]
      have hreplies : replies byName ⟨asJson, false⟩ grammar line =
          [.report ((grammar.run (withoutLineEnd line)).report asJson)] := by
        simp [replies, hname, hparsed]
      rw [hreplies, List.map_singleton, join_singleton]
      rfl
    | some name =>
      cases hgrammar : byName name with
      | none =>
        have hreplies : replies byName ⟨asJson, false⟩ grammar line = [.unknownGrammar name] := by
          simp [replies, hname, hgrammar]
        rw [hreplies, List.map_singleton, join_singleton]
        simp only [hgrammar, if_true]
        rfl
      | some selected => simp [replies, hname, hgrammar, String.join_nil]

theorem text_prompt (elapsed : Elapsed) (first : Grammar) (earlier : List String) :
    Piece.text elapsed (.prompt (afterLines byName first earlier)) =
      promptText byName first earlier := rfl

theorem join_entries (lines : List String) :
    String.join ((entries byName ⟨asJson, false⟩ first earlier lines).map (Piece.text elapsed)) =
      String.join (lines.mapIdx fun k line =>
        promptText byName first (earlier ++ lines.take k)
          ++ answer byName asJson (latestGrammar byName first (earlier ++ lines.take k)) line) := by
  induction lines generalizing earlier with
  | nil => rfl
  | cons line lines ih =>
    simp only [entries, List.map_cons, List.map_append, String.join_cons, String.join_append,
      text_prompt, join_replies, ih, List.mapIdx_cons, List.take_zero, List.append_nil,
      List.take_succ_cons, List.append_assoc, List.singleton_append, String.append_assoc]

/-- Over a text a session comes to its end, and writes the script of the lines
of the text, whatever names it reads for grammars. -/
theorem run_encode (asJson : Bool) (first : Grammar) (text : String) (elapsed : Elapsed) :
    (Session.run byName ⟨asJson, false⟩ first (Text.encode text)).text elapsed =
        script byName asJson first (Text.lines text) ∧
      (Session.run byName ⟨asJson, false⟩ first (Text.encode text)).ending = .finished := by
  rw [Session.run, Text.decode_cutLines_encode, transcript_map_some]
  refine ⟨?_, rfl⟩
  have hentries : String.join ((entries byName ⟨asJson, false⟩ first []
      (linesRead (Text.lines text))).map (Piece.text elapsed)) = _ := join_entries _
  simp only [List.nil_append] at hentries
  rw [Transcript.text, List.map_append, String.join_append, hentries, script]
  split
  · rfl
  · rw [List.map_cons, List.map_singleton, String.join_cons, join_singleton, text_prompt]
    rfl

/-- **What a session writes.**  Let names of grammars be read whatever the case
of their letters.  A session over a text comes to its end, and what it writes is
the script of the lines of the text: for each line that it reads a prompt, with
the number of lines before that were parsed and the grammar that the latest of
them selected, and what is written about that line. -/
theorem transcript_follows_script (hnames : Grammar.IgnoresCase byName) (asJson : Bool)
    (first : Grammar) (text : String) (elapsed : Elapsed) :
    (Session.run byName ⟨asJson, false⟩ first (Text.encode text)).text elapsed =
        script (Grammar.ofName? true) asJson first (Text.lines text) ∧
      (Session.run byName ⟨asJson, false⟩ first (Text.encode text)).ending = .finished := by
  rw [← hnames.eq_ofName?]
  exact run_encode asJson first text elapsed

/-- A grammar is selected in capitals. -/
theorem transcript_follows_script_capitals :
    Grammar.IgnoresCase (Grammar.ofName? true) ∧
    ∀ elapsed, (Session.run (Grammar.ofName? true) ⟨false, false⟩ .words
        (Text.encode ":grammar GREETINGS\nfoo\n")).text elapsed =
      "(0) weft [words] | (0) weft [greetings] | ok @ 3: [\"foo\"]\n" ++
        "(1) weft [greetings] | exit\n" := by
  have hlines : Text.lines ":grammar GREETINGS\nfoo\n" = [":grammar GREETINGS\n", "foo\n"] := by
    cbv
  have hgrammar : Grammar.ofName? true "GREETINGS" = some .greetings := by
    rw [Grammar.ignoresCase_ofName?, Grammar.lowerCase, Grammar.lowerCase, ← String.toList_inj,
      String.toList_map, String.toList_map]
    decide
  have hname : askedName? ":grammar GREETINGS\n" = some "GREETINGS" := by cbv
  have hnone : askedName? "foo\n" = none := by cbv
  have hstays : ∀ line ∈ [":grammar GREETINGS\n", "foo\n"], trimmed line ≠ "exit" := by decide
  -- of the reading of names it only matters what it makes of this one
  have hscript : ∀ byName : String → Option Grammar, byName "GREETINGS" = some .greetings →
      script byName false .words [":grammar GREETINGS\n", "foo\n"] =
        "(0) weft [words] | (0) weft [greetings] | ok @ 3: [\"foo\"]\n" ++
          "(1) weft [greetings] | exit\n" := by
    intro byName hselects
    have hswitch : answer byName false .words ":grammar GREETINGS\n" = "" := by
      simp [answer, hname, hselects]
    have hparse : answer byName false .greetings "foo\n" = "ok @ 3: [\"foo\"]\n" := by
      simp only [answer, hnone]
      set_option maxRecDepth 2048 in cbv
    have hnext : latestGrammar byName .words [":grammar GREETINGS\n"] = .greetings := by
      simp [latestGrammar, selected?, hname, hselects]
    have hlast : latestGrammar byName .words [":grammar GREETINGS\n", "foo\n"] = .greetings := by
      simp [latestGrammar, selected?, hname, hnone, hselects]
    have hleaves : ¬ ∃ line ∈ [":grammar GREETINGS\n", "foo\n"], trimmed line = "exit" := by
      simpa using hstays
    rw [script, linesRead_eq_self hstays, if_neg hleaves]
    simp only [List.mapIdx_cons, List.mapIdx_nil, List.take_zero, List.take_succ_cons, promptText,
      hnext, hlast, hparse, parsedCount, latestGrammar_nil, hswitch]
    cbv
  refine ⟨Grammar.ignoresCase_ofName?, fun elapsed => ?_⟩
  obtain ⟨hrun, -⟩ := transcript_follows_script Grammar.ignoresCase_ofName? false .words
    ":grammar GREETINGS\nfoo\n" elapsed
  rw [hrun, hlines]
  exact hscript _ hgrammar

end Text

end Session

end Parsing
