/-
Parsing.Proofs.Sources — a text, a file or a line: the answer is the same.

What is parsed comes to the program in three ways, and each of them trims in
its own way: a text is taken as it stands, a file without the line ends at its
end, and a line without its line end, after it has been looked at without the
blanks at its ends.  What a grammar is run on in the end is the same text, so
the report is the same.

That holds of the options that a run is handed (`Options.run_text`,
`Options.run_file`, `Options.run_typed`), and so of arguments for any reader of
arguments of which `CommandLine.Reads` holds (`Options.sources_agree`).  With
arguments there is one thing more to see to: a text that begins with a hyphen
has to be attached to its flag (`Options.hyphened_text_refused`).
-/
import Mathlib
import Parsing.Options
import Parsing.Proofs.Arguments
import Parsing.Proofs.Lines
import Parsing.Proofs.History
import Parsing.Proofs.Tokens

namespace Parsing

/-! ## Texts without their line ends -/

namespace Text

/-- The text has nothing but carriage returns and line feeds. -/
def IsLineEnds (text : String) : Prop :=
  ∀ c ∈ text.toList, c = '\r' ∨ c = '\n'

/-- The text ends with neither a carriage return nor a line feed. -/
def EndsInLine (text : String) : Prop :=
  ∀ c ∈ text.toList.getLast?, c ≠ '\r' ∧ c ≠ '\n'

variable {accepts : Char → Bool} {body tail : String}

theorem dropLastWhile_eq_self {chars : List Char}
    (h : ∀ c ∈ chars.getLast?, accepts c = false) : dropLastWhile accepts chars = chars := by
  have hfirst : chars.reverse.dropWhile accepts = chars.reverse := by
    rw [← List.head?_reverse] at h
    cases hchars : chars.reverse with
    | nil => rfl
    | cons c rest => rw [List.dropWhile_cons_of_neg (by simp [h c (by simp [hchars])])]
  rw [dropLastWhile, hfirst, List.reverse_reverse]

theorem isLineEnd_eq_false {c : Char} (h : c ≠ '\r' ∧ c ≠ '\n') : isLineEnd c = false := by
  simp [isLineEnd, h.1, h.2]

theorem withoutLineEnd_append (hbody : EndsInLine body) (htail : IsLineEnds tail) :
    withoutLineEnd (body ++ tail) = body := by
  have hends : ∀ c ∈ tail.toList, isLineEnd c = true := by
    intro c hc
    rcases htail c hc with rfl | rfl <;> rfl
  rw [withoutLineEnd, String.toList_append, dropLastWhile_append hends,
    dropLastWhile_eq_self fun c hc => isLineEnd_eq_false (hbody c hc), String.ofList_toList]

/-- What is left out are line ends, and no line end is left. -/
theorem exists_withoutLineEnd_append (text : String) :
    ∃ tail, text = withoutLineEnd text ++ tail ∧ EndsInLine (withoutLineEnd text) ∧
      IsLineEnds tail := by
  obtain ⟨back, htext, hback⟩ := exists_dropLastWhile_append isLineEnd text.toList
  refine ⟨String.ofList back, String.toList_inj.1 (by simpa [withoutLineEnd] using htext), ?_, ?_⟩
  · intro c hc
    rw [withoutLineEnd, String.toList_ofList, dropLastWhile, List.getLast?_reverse] at hc
    have hstop := List.head?_dropWhile_not isLineEnd text.toList.reverse
    rw [Option.mem_def.1 hc] at hstop
    simpa [isLineEnd, and_comm] using hstop
  · intro c hc
    have hend := hback c (by simpa using hc)
    simpa [isLineEnd, or_comm] using hend

/-- A text without line feeds is one line with the line feed behind it. -/
theorem lines_append_lineFeed {text : String} (h : '\n' ∉ text.toList) :
    lines (text ++ "\n") = [text ++ "\n"] := by
  have hsplit : ∀ chars : List Char, '\n' ∉ chars →
      (chars ++ ['\n']).splitBy (fun c _ => c != '\n') = [chars ++ ['\n']] := by
    intro chars hchars
    induction chars with
    | nil => rfl
    | cons c chars ih =>
      simp only [List.mem_cons, not_or] at hchars
      exact splitBy_cons_goesOn (by simpa using Ne.symm hchars.1) (ih hchars.2)
  have hchars : (text ++ "\n").toList = text.toList ++ ['\n'] := by simp
  rw [lines, hchars, hsplit _ h, List.map_singleton, ← hchars, String.ofList_toList]

end Text

/-! ## One line of a session -/

namespace Session

open Text

/-- The text can be given as a line, and is parsed then as it stands: it has
no line feed and does not end in a carriage return, it is not blank, and it
neither leaves nor selects a grammar. -/
structure IsTyped (s : String) : Prop where
  noLineFeed : '\n' ∉ s.toList
  notReturn : s.toList.getLast? ≠ some '\r'
  notBlank : trimmed s ≠ ""
  notLeaving : trimmed s ≠ "exit"
  notSelecting : ∀ name, trimmed s ≠ ":grammar" ++ name

variable {s : String}

/-- A text selects no grammar if its first character that is not blank is no
colon. -/
theorem isTyped_of_trimmed {word : String} (htrimmed : trimmed s = word)
    (hnoLineFeed : '\n' ∉ s.toList) (hnotReturn : s.toList.getLast? ≠ some '\r')
    (hnotBlank : word ≠ "") (hnotLeaving : word ≠ "exit")
    (hnoColon : word.toList.head? ≠ some ':') : IsTyped s where
  noLineFeed := hnoLineFeed
  notReturn := hnotReturn
  notBlank := htrimmed ▸ hnotBlank
  notLeaving := htrimmed ▸ hnotLeaving
  notSelecting name hname := by
    rw [htrimmed] at hname
    simp [hname] at hnoColon

theorem IsTyped.endsInLine (h : IsTyped s) : EndsInLine s := by
  intro c hc
  refine ⟨?_, ?_⟩
  · rintro rfl
    exact h.notReturn hc
  · rintro rfl
    exact h.noLineFeed (List.mem_of_getLast? hc)

theorem isLineEnds_lineFeed : IsLineEnds "\n" := by
  intro c hc
  exact .inr (by simpa using hc)

theorem IsTyped.withoutLineEnd_eq (h : IsTyped s) : withoutLineEnd (s ++ "\n") = s :=
  withoutLineEnd_append h.endsInLine isLineEnds_lineFeed

theorem IsTyped.isParsed (h : IsTyped s) : isParsed (s ++ "\n") = true := by
  have htrimmed : trimmed (s ++ "\n") = trimmed s := by
    rw [← trimmed_withoutLineEnd, h.withoutLineEnd_eq]
  have hname : askedName? (s ++ "\n") = none := by
    rw [Option.eq_none_iff_forall_ne_some]
    intro name hname
    obtain ⟨rest, hrest, -⟩ := askedName?_eq_some_iff.1 hname
    exact h.notSelecting rest (htrimmed ▸ hrest)
  simp [Session.isParsed, htrimmed, hname, h.notBlank, h.notLeaving]

/-- A session over one such line writes its report between two prompts. -/
theorem IsTyped.run_line (h : IsTyped s) (byName : String → Option Grammar) (g : Grammar)
    (asJson : Bool) :
    run byName ⟨asJson, false⟩ g (encode (s ++ "\n")) =
      ⟨[.prompt ⟨g, 0⟩, .report ((g.run s).report asJson), .prompt ⟨g, 1⟩, .farewell],
        .finished⟩ := by
  have hparsed := h.isParsed
  have hstays : trimmed (s ++ "\n") ≠ "exit" := by
    intro hexit
    simp [Session.isParsed, hexit] at hparsed
  have hname := askedName?_of_isParsed hparsed
  have hreplies : replies byName ⟨asJson, false⟩ g (s ++ "\n") =
      [.report ((g.run s).report asJson)] := by
    simp [replies, hname, hparsed, h.withoutLineEnd_eq]
  rw [run, decode_cutLines_encode, lines_append_lineFeed h.noLineFeed]
  -- a session that starts is one after no lines
  show transcript byName _ (afterLines byName g []) (some (s ++ "\n") :: []) = _
  rw [transcript, respond_ofLine _ hstays, afterLines_concat]
  simp [transcript, Transcript.after, hreplies, hparsed, latestGrammar, selected?, hname,
    afterLines, parsedCount]

end Session

/-! ## Runs -/

/-- A grammar succeeds on every text. -/
theorem Grammar.isError_run (g : Grammar) (text : String) : (g.run text).isError = false := by
  obtain ⟨tokens, rest, rfl, htokens⟩ := exists_tokens g.matchers text
  have hrun : g.run (String.join tokens ++ rest) =
      ⟨String.join tokens ++ rest, (String.join tokens).utf8ByteSize, .ok tokens⟩ :=
    tokenizer_run_iff.2 ⟨rest, rfl, htokens⟩
  rw [hrun, State.isError_ok]

namespace Session

/-- A prompt, whose count is written out with what stands around it. -/
theorem text_prompt_of_eq (elapsed : Elapsed) (g : Grammar) {n : Nat} {start : String}
    (hstart : "(" ++ toString n ++ ") weft [" = start) :
    Piece.text elapsed (.prompt ⟨g, n⟩) = start ++ g.name ++ "] | " := by
  rw [← hstart]
  rfl

theorem text_report (elapsed : Elapsed) (text : String) :
    Piece.text elapsed (.report text) = text ++ "\n" := rfl

theorem text_farewell (elapsed : Elapsed) : Piece.text elapsed .farewell = "exit\n" := rfl

theorem IsTyped.text_run_line {s : String} (h : IsTyped s) (byName : String → Option Grammar)
    (g : Grammar) (asJson : Bool) (elapsed : Elapsed) :
    (run byName ⟨asJson, false⟩ g (Text.encode (s ++ "\n"))).text elapsed =
      "(0) weft [" ++ g.name ++ "] | " ++ ((g.run s).report asJson ++ "\n") ++
        ("(1) weft [" ++ g.name ++ "] | " ++ "exit\n") := by
  have hfirst : "(" ++ toString 0 ++ ") weft [" = "(0) weft [" := by cbv
  have hsecond : "(" ++ toString 1 ++ ") weft [" = "(1) weft [" := by cbv
  rw [h.run_line, Transcript.text, List.map_cons, List.map_cons, List.map_cons, List.map_singleton,
    String.join_cons, String.join_cons, String.join_cons, join_singleton,
    text_prompt_of_eq elapsed g hfirst, text_prompt_of_eq elapsed g hsecond, text_report,
    text_farewell]
  exact String.append_assoc.symm

end Session

namespace Options

open Text CommandLine

theorem runText_eq (options : Options) (text : String) :
    options.runText text = ⟨(options.grammar.run text).report options.asJson ++ "\n", none⟩ := by
  simp [runText, Grammar.isError_run]

/-- A file is parsed without the line ends at its end. -/
theorem runFile_eq (options : Options) (name : String) {bytes : List UInt8} {body tail : String}
    (hbytes : decode? bytes = some (body ++ tail)) (hbody : EndsInLine body)
    (htail : IsLineEnds tail) : options.runFile name (.ok bytes) = options.runText body := by
  simp only [runFile, hbytes, withoutLineEnd_append hbody htail]

section Sources

variable {byName : String → Option Grammar} {read : String → Except ReadError (List UInt8)}
  {elapsed : Session.Elapsed} {input : List UInt8} {g : Grammar} {asJson verbose : Bool}

theorem run_text (s : String) :
    run ⟨none, some s, g, asJson, verbose⟩ byName read elapsed input =
      ⟨(g.run s).report asJson ++ "\n", none⟩ :=
  runText_eq ..

theorem run_file {name : String} {text : Option String} {bytes : List UInt8} {body tail : String}
    (hread : read name = .ok bytes) (hbytes : decode? bytes = some (body ++ tail))
    (hbody : EndsInLine body) (htail : IsLineEnds tail) :
    run ⟨some name, text, g, asJson, verbose⟩ byName read elapsed input =
      ⟨(g.run body).report asJson ++ "\n", none⟩ := by
  simp only [run, hread, runFile_eq _ name hbytes hbody htail, runText_eq]

/-- The answer to a line stands between the first prompt and the second. -/
theorem run_typed {s : String} (hs : Session.IsTyped s) :
    run ⟨none, none, g, asJson, false⟩ byName read elapsed (encode (s ++ "\n")) =
      ⟨"(0) weft [" ++ g.name ++ "] | " ++ ((g.run s).report asJson ++ "\n") ++
        ("(1) weft [" ++ g.name ++ "] | " ++ "exit\n"), none⟩ := by
  have htext := hs.text_run_line byName g asJson elapsed
  have hending := congrArg Session.Transcript.ending (hs.run_line byName g asJson)
  simp only [run, runLines, style, htext, hending]
  rfl

end Sources

theorem runArguments_eq {accept : List String → Except (Nat × String) Options}
    {arguments : List String} {options : Options} (h : accept arguments = .ok options)
    {byName : String → Option Grammar} {read : String → Except ReadError (List UInt8)}
    {elapsed : Session.Elapsed} {input : List UInt8} {answer : String}
    (hrun : options.run byName read elapsed input = ⟨answer, none⟩) :
    runArguments accept byName arguments read elapsed input = (0, answer) := by
  simp only [runArguments, h, hrun]
  rfl

/-- **Three sources, one answer.**  A text that can be given as a line is
answered alike behind its flag or attached to it, as a file with any line ends
behind it, and as a line: there the answer stands between the first prompt and
the second.  And any file that is text is answered as the text without the line
ends at its end. -/
theorem sources_agree {accept : List String → Except (Nat × String) Options}
    (hreads : Reads accept) (byName : String → Option Grammar) (g : Grammar) (asJson : Bool) :
    (∀ s, Session.IsTyped s → ∃ answer, ∀ read elapsed input,
      (∀ arguments, GivesText s arguments →
        runArguments accept byName (flags g asJson false ++ arguments) read elapsed input =
          (0, answer)) ∧
      (∀ name arguments tail, NamesFile name arguments → IsLineEnds tail →
        read name = .ok (encode (s ++ tail)) →
        runArguments accept byName (flags g asJson false ++ arguments) read elapsed input =
          (0, answer)) ∧
      runArguments accept byName (flags g asJson false) read elapsed (encode (s ++ "\n")) =
        (0, "(0) weft [" ++ g.name ++ "] | " ++ answer ++
          ("(1) weft [" ++ g.name ++ "] | " ++ "exit\n"))) ∧
    (∀ name bytes contents verbose read elapsed input,
      read name = .ok bytes → decode? bytes = some contents →
      ∃ body tail, contents = body ++ tail ∧ EndsInLine body ∧ IsLineEnds tail ∧
        ∃ answer, ∀ arguments, NamesFile name arguments ∨ GivesText body arguments →
          runArguments accept byName (flags g asJson verbose ++ arguments) read elapsed input =
            (0, answer)) := by
  refine ⟨fun s hs => ?_, ?_⟩
  · refine ⟨(g.run s).report asJson ++ "\n", fun read elapsed input => ⟨?_, ?_, ?_⟩⟩
    · intro arguments hgives
      exact runArguments_eq (hreads.text g asJson false hgives) (run_text s)
    · intro name arguments tail hnames htail hread
      exact runArguments_eq (hreads.file g asJson false hnames)
        (run_file hread (decode?_encode _) hs.endsInLine htail)
    · exact runArguments_eq (hreads.lines g asJson false) (run_typed hs)
  · intro name bytes contents verbose read elapsed input hread hbytes
    obtain ⟨tail, hcontents, hbody, htail⟩ := exists_withoutLineEnd_append contents
    rw [hcontents] at hbytes
    refine ⟨withoutLineEnd contents, tail, hcontents, hbody, htail,
      (g.run (withoutLineEnd contents)).report asJson ++ "\n", ?_⟩
    rintro arguments (hnames | hgives)
    · exact runArguments_eq (hreads.file g asJson verbose hnames)
        (run_file hread hbytes hbody htail)
    · exact runArguments_eq (hreads.text g asJson verbose hgives) (run_text _)

/-- Blanks at the ends and a carriage return within belong to the text, however
it is given: the session looks at the text without the blanks only to see that
it is to be parsed.  Line ends at the end of a file do not belong to it. -/
theorem sources_agree_blank_ends :
    Reads accept ∧ Session.IsTyped " a\r1\u2003" ∧ IsLineEnds "\r\n\n" ∧
    decode? [97, 10, 13, 10] = some "a\n\r\n" ∧
    (∃ answer, ∀ read elapsed,
      read "x" = .ok (encode (" a\r1\u2003" ++ "\r\n\n")) →
      runArguments accept (Grammar.ofName? true)
        ["--grammar=words", "--json", "-e", " a\r1\u2003"] read elapsed [] = (0, answer) ∧
      runArguments accept (Grammar.ofName? true)
        ["--grammar=words", "--json", "x"] read elapsed [] = (0, answer) ∧
      runArguments accept (Grammar.ofName? true)
        ["--grammar=words", "--json"] read elapsed (encode (" a\r1\u2003" ++ "\n")) =
          (0, "(0) weft [" ++ Grammar.words.name ++ "] | " ++ answer ++
            ("(1) weft [" ++ Grammar.words.name ++ "] | " ++ "exit\n"))) ∧
    ∃ body tail, "a\n\r\n" = body ++ tail ∧ EndsInLine body ∧ IsLineEnds tail ∧
      ∃ answer,
        runArguments accept (Grammar.ofName? true) ["--grammar=words", "--json", "--", "-"]
          (fun _ => .ok [97, 10, 13, 10]) ⟨"0", "0"⟩ [] = (0, answer) ∧
        runArguments accept (Grammar.ofName? true)
          ["--grammar=words", "--json", "--expr=" ++ body]
          (fun _ => .ok [97, 10, 13, 10]) ⟨"0", "0"⟩ [] = (0, answer) := by
  have htrimmed : trimmed " a\r1\u2003" = "a\r1" := by cbv
  have htyped : Session.IsTyped " a\r1\u2003" :=
    Session.isTyped_of_trimmed htrimmed (by decide) (by decide) (by decide) (by decide)
      (by decide)
  have hends : IsLineEnds "\r\n\n" := by
    intro c hc
    simpa using hc
  have hdecode : decode? [97, 10, 13, 10] = some "a\n\r\n" := by cbv
  have htext : GivesText " a\r1\u2003" ["-e", " a\r1\u2003"] :=
    .apart (by simp [IsHyphened])
  have hfile : NamesFile "x" ["x"] := .plain (by simp [IsHyphened])
  obtain ⟨htyping, hfiles⟩ := sources_agree accept_reads (Grammar.ofName? true) .words true
  obtain ⟨answer, hanswer⟩ := htyping _ htyped
  refine ⟨accept_reads, htyped, hends, hdecode, ⟨answer, fun read elapsed hread => ?_⟩, ?_⟩
  · obtain ⟨htexts, hnamed, hlines⟩ := hanswer read elapsed []
    exact ⟨htexts _ htext, hnamed "x" _ _ hfile hends hread, hlines⟩
  · obtain ⟨body, tail, hcontents, hbody, htail, answer, hagree⟩ :=
      hfiles "-" _ _ false (fun _ => .ok [97, 10, 13, 10]) ⟨"0", "0"⟩ [] rfl hdecode
    exact ⟨body, tail, hcontents, hbody, htail, answer, hagree _ (.inl .behindDashes),
      hagree _ (.inr .attached)⟩

/-- A text that begins with a hyphen is refused behind its flag, though as a
file and as a line it is answered. -/
theorem hyphened_text_refused :
    Session.IsTyped "-a" ∧
    runArguments accept (Grammar.ofName? true) ["-e", "-a"]
      (fun _ => .ok (encode "-a")) ⟨"0", "0"⟩ [] = (2, "") ∧
    runArguments accept (Grammar.ofName? true) ["x"]
      (fun _ => .ok (encode "-a")) ⟨"0", "0"⟩ [] =
        (0, (Grammar.words.run "-a").report false ++ "\n") ∧
    runArguments accept (Grammar.ofName? true) []
      (fun _ => .ok (encode "-a")) ⟨"0", "0"⟩ (encode ("-a" ++ "\n")) =
        (0, "(0) weft [" ++ Grammar.words.name ++ "] | " ++
          ((Grammar.words.run "-a").report false ++ "\n") ++
          ("(1) weft [" ++ Grammar.words.name ++ "] | " ++ "exit\n")) := by
  have htrimmed : trimmed "-a" = "-a" := by cbv
  have htyped : Session.IsTyped "-a" :=
    Session.isTyped_of_trimmed htrimmed (by decide) (by decide) (by decide) (by decide)
      (by decide)
  have hbytes : decode? (encode "-a") = some ("-a" ++ "") := by
    rw [decode?_encode, String.append_empty]
  have hnoEnds : IsLineEnds "" := by simp [IsLineEnds]
  exact ⟨htyped, rfl, runArguments_eq rfl (run_file rfl hbytes htyped.endsInLine hnoEnds),
    runArguments_eq rfl (run_typed htyped)⟩

end Options

end Parsing
