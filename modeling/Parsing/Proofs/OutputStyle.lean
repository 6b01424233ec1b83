/-
Parsing.Proofs.OutputStyle — what the style of a session decides.

A session has two flags of style.  What happens in it is the same whatever
they are: the prompts, the lines that are parsed and with which grammar, the
names that no grammar has, and the end (`Session.account`).  A transcript is
that account written in a style (`Session.transcript_eq_account`), so that the
flags decide how a parse is reported and whether its time is told, and nothing
else.

The line that tells the time can be cut out of what is written, by its text
alone (`Text.withoutLine`).  Input comes back in reports and in the lines about
names, and may hold that very text; but a report and a line about a name have
another character before each of their line feeds, and prompts do not have the
first letter of the line.
-/
import Mathlib
import Parsing.Proofs.History
import Parsing.Proofs.LineFeeds
import Parsing.Proofs.Sources

namespace Parsing

/-! ## Cutting out a line -/

namespace Text

/-- The characters without the occurrences of a word, which are looked for from
the front. -/
def without (word : List Char) : List Char → List Char
  | [] => []
  | c :: chars =>
      if word <+: c :: chars then without word (chars.drop (word.length - 1))
      else c :: without word chars
termination_by chars => chars.length

/-- The text without the occurrences of a line and of the line feed behind it,
wherever in a line of the text they stand. -/
def withoutLine (line text : String) : String :=
  String.ofList (without (line.toList ++ ['\n']) text.toList)

variable {word line rest : List Char}

theorem without_word (hne : word ≠ []) (rest : List Char) :
    without word (word ++ rest) = without word rest := by
  have hprefix : word <+: word ++ rest := List.prefix_append word rest
  cases word with
  | nil => exact absurd rfl hne
  | cons c word =>
    rw [List.cons_append] at hprefix ⊢
    rw [without, if_pos hprefix]
    simp

/-- No occurrence starts in characters that do not have the first one of the
word. -/
theorem without_append_of_notMem {c : Char} {front : List Char} (h : c ∉ front) :
    without (c :: word) (front ++ rest) = front ++ without (c :: word) rest := by
  induction front with
  | nil => rfl
  | cons d front ih =>
    simp only [List.mem_cons, not_or] at h
    have hno : ¬ c :: word <+: d :: (front ++ rest) := by
      rw [List.cons_prefix_cons]
      exact fun hprefix => h.1 hprefix.1
    rw [List.cons_append, without, if_neg hno, ih h.2, List.cons_append]

/-- Two lines that start alike and end with the same line feed are the same. -/
theorem eq_of_prefix_line {cut : List Char} (hcut : '\n' ∉ cut) (hline : '\n' ∉ line)
    (h : cut ++ ['\n'] <+: line ++ '\n' :: rest) : cut = line := by
  obtain ⟨tail, htail⟩ := h
  have hcode : PrefixFree fun a : {chars : List Char // '\n' ∉ chars} => a.1 ++ ['\n'] :=
    prefixFree_of_notMem Subtype.val_injective fun a => a.2
  have heq : cut ++ ['\n'] ++ tail = line ++ ['\n'] ++ rest := by simpa using htail
  exact congrArg Subtype.val (@hcode ⟨cut, hcut⟩ ⟨line, hline⟩ _ _ heq).1

/-- A line stays that does not end with the one that is cut out: an occurrence
that starts in it would end with it. -/
theorem without_line {cut : List Char} (hcut : '\n' ∉ cut) (hline : '\n' ∉ line)
    (hends : ¬ cut <:+ line) (rest : List Char) :
    without (cut ++ ['\n']) (line ++ '\n' :: rest) =
      line ++ '\n' :: without (cut ++ ['\n']) rest := by
  have hno : ¬ cut ++ ['\n'] <+: line ++ '\n' :: rest := fun h =>
    hends (eq_of_prefix_line hcut hline h ▸ List.suffix_refl cut)
  induction line with
  | nil =>
    rw [List.nil_append] at hno ⊢
    rw [without, if_neg hno]
    rfl
  | cons c line ih =>
    simp only [List.mem_cons, not_or] at hline
    have hends' : ¬ cut <:+ line := fun h => hends (h.trans (List.suffix_cons c line))
    have hno' : ¬ cut ++ ['\n'] <+: line ++ '\n' :: rest := fun h =>
      hends' (eq_of_prefix_line hcut hline.2 h ▸ List.suffix_refl cut)
    rw [List.cons_append] at hno ⊢
    rw [without, if_neg hno, ih hline.2 hends' hno', List.cons_append]

/-- A line that goes on stays, and one that ends with the word loses it. -/
example : withoutLine "b" "bc\nab\nb\n" = "bc\na" := by cbv

/-! ## Line feeds of trimmed texts -/

variable {text : String} {c : Char}

theorem mem_of_mem_dropLastWhile {accepts : Char → Bool} {chars : List Char}
    (h : c ∈ dropLastWhile accepts chars) : c ∈ chars := by
  obtain ⟨back, hback, -⟩ := exists_dropLastWhile_append accepts chars
  rw [hback]
  exact List.mem_append_left back h

theorem mem_of_mem_trimmed (h : c ∈ (trimmed text).toList) : c ∈ text.toList := by
  rw [trimmed, String.toList_ofList] at h
  exact (List.dropWhile_suffix isBlank).subset (mem_of_mem_dropLastWhile h)

/-- A line feed at the end of a text is trimmed off. -/
theorem lineFeed_notMem_trimmed (h : '\n' ∉ text.toList.dropLast) :
    '\n' ∉ (trimmed text).toList := by
  cases hlast : text.toList.getLast? with
  | none =>
    have hnil := List.getLast?_eq_none_iff.1 hlast
    exact fun hmem => by simpa [hnil] using mem_of_mem_trimmed hmem
  | some c =>
    obtain ⟨front, hfront⟩ := List.getLast?_eq_some_iff.1 hlast
    rw [hfront, List.dropLast_concat] at h
    by_cases hc : c = '\n'
    · have hall : ∀ d ∈ [c], isLineEnd d = true := by simp [hc, isLineEnd]
      rw [← trimmed_withoutLineEnd, withoutLineEnd, hfront, dropLastWhile_append hall]
      intro hmem
      have hkept := mem_of_mem_trimmed hmem
      rw [String.toList_ofList] at hkept
      exact h (mem_of_mem_dropLastWhile hkept)
    · intro hmem
      have htext := mem_of_mem_trimmed hmem
      rw [hfront] at htext
      simp [h, Ne.symm hc] at htext

end Text

namespace Session

open Text

variable {byName : String → Option Grammar}

/-! ## What happens in a session -/

/-- What happens in a session, whatever its style. -/
inductive Event where
  /-- A line is waited for. -/
  | prompt (session : Session)
  /-- A grammar is asked for by a name that none has. -/
  | unknownGrammar (name : String)
  /-- A text is parsed with a grammar. -/
  | parsed (grammar : Grammar) (text : String)
  /-- The lines are at their end. -/
  | farewell
deriving DecidableEq, Repr

/-- The pieces that a session of the style writes about an event. -/
def Event.pieces (style : Style) : Event → List Piece
  | .prompt session => [.prompt session]
  | .unknownGrammar name => [.unknownGrammar name]
  | .parsed grammar text =>
      (if style.verbose then [.timing] else [])
        ++ [.report ((grammar.run text).report style.asJson)]
  | .farewell => [.farewell]

/-- What happens in a session about a command: how it goes on, and the events;
nothing when it ends. -/
def heed (byName : String → Option Grammar) (session : Session) :
    Command → Option (Session × List Event)
  | .skip => some (session, [])
  | .leave => none
  | .select name =>
      match byName name with
      | some grammar => some ({ session with grammar := grammar }, [])
      | none => some (session, [.unknownGrammar name])
  | .parse text =>
      some ({ session with parsed := session.parsed + 1 }, [.parsed session.grammar text])

/-- The events of a session, and how it ended. -/
structure Account where
  events : List Event
  ending : Ending

/-- The account of a session over lines, of which one may be no text. -/
def account (byName : String → Option Grammar) :
    Session → List (Option String) → Account
  | session, [] => ⟨[.prompt session, .farewell], .finished⟩
  | session, none :: _ => ⟨[.prompt session], .notText⟩
  | session, some line :: lines =>
      match session.heed byName (.ofLine line) with
      | none => ⟨[.prompt session], .finished⟩
      | some (next, events) =>
          let rest := account byName next lines
          ⟨.prompt session :: events ++ rest.events, rest.ending⟩

/-- The account written in a style. -/
def Account.transcript (style : Style) (a : Account) : Transcript where
  pieces := a.events.flatMap (Event.pieces style)
  ending := a.ending

/-- **The step.**  The style does not matter to how a session goes on, and what
it writes are the events in its style. -/
theorem respond_eq_heed (style : Style) (session : Session) (command : Command) :
    session.respond byName style command =
      (session.heed byName command).map fun (next, events) =>
        (next, events.flatMap (Event.pieces style)) := by
  cases command with
  | skip => rfl
  | leave => rfl
  | select name =>
    simp only [respond, heed]
    cases byName name with
    | none => rfl
    | some grammar => rfl
  | parse text => simp [respond, heed, Event.pieces]

/-- **The run.**  A transcript is the account of the session in its style. -/
theorem transcript_eq_account (style : Style) (session : Session) (lines : List (Option String)) :
    transcript byName style session lines = (account byName session lines).transcript style := by
  induction lines generalizing session with
  | nil => rfl
  | cons line lines ih =>
    cases line with
    | none => rfl
    | some line =>
      simp only [transcript, account, respond_eq_heed]
      cases session.heed byName (.ofLine line) with
      | none => rfl
      | some reply =>
        obtain ⟨next, events⟩ := reply
        simp only [Option.map_some, ih next]
        simp [Account.transcript, Transcript.after, Event.pieces]

/-! ## Names of one line -/

/-- A name that is asked for has no line feed. -/
def Event.OneLine : Event → Prop
  | .unknownGrammar name => '\n' ∉ name.toList
  | _ => True

/-- What a line asks for is within the line, and its line feed is not. -/
theorem lineFeed_notMem_askedName {line name : String} (hline : '\n' ∉ line.toList.dropLast)
    (h : askedName? line = some name) : '\n' ∉ name.toList := by
  obtain ⟨rest, hrest, rfl⟩ := askedName?_eq_some_iff.1 h
  have hword := lineFeed_notMem_trimmed hline
  rw [hrest, String.toList_append] at hword
  exact fun hmem => hword (List.mem_append_right _ (mem_of_mem_trimmed hmem))

theorem heed_oneLine {session next : Session} {line : String} {events : List Event}
    (hline : '\n' ∉ line.toList.dropLast)
    (h : session.heed byName (.ofLine line) = some (next, events)) : ∀ e ∈ events, e.OneLine := by
  have hasks := asks_ofLine line
  generalize Command.ofLine line = command at hasks h
  cases hasks with
  | skip =>
    obtain ⟨-, rfl⟩ := Prod.mk.inj (Option.some.inj h)
    simp
  | leave => simp [heed] at h
  | @select name hname =>
    simp only [heed] at h
    cases hgrammar : byName name with
    | some grammar =>
      rw [hgrammar] at h
      obtain ⟨-, rfl⟩ := Prod.mk.inj (Option.some.inj h)
      simp
    | none =>
      rw [hgrammar] at h
      obtain ⟨-, rfl⟩ := Prod.mk.inj (Option.some.inj h)
      simpa [Event.OneLine] using lineFeed_notMem_askedName hline hname
  | parse =>
    obtain ⟨-, rfl⟩ := Prod.mk.inj (Option.some.inj h)
    simp [Event.OneLine]

theorem account_oneLine (session : Session) {lines : List (Option String)}
    (hlines : ∀ line, some line ∈ lines → '\n' ∉ line.toList.dropLast) :
    ∀ e ∈ (account byName session lines).events, e.OneLine := by
  induction lines generalizing session with
  | nil => simp [account, Event.OneLine]
  | cons line lines ih =>
    cases line with
    | none => simp [account, Event.OneLine]
    | some line =>
      have hline := hlines line (List.mem_cons_self ..)
      simp only [account]
      cases hheed : session.heed byName (.ofLine line) with
      | none => simp [Event.OneLine]
      | some reply =>
        obtain ⟨next, events⟩ := reply
        have hrest := ih next fun other hother => hlines other (List.mem_cons_of_mem _ hother)
        have hevents := heed_oneLine hline hheed
        intro e he
        simp only [List.cons_append, List.mem_cons, List.mem_append] at he
        rcases he with rfl | he | he
        · trivial
        · exact hevents e he
        · exact hrest e he

/-! ## The line that tells the time -/

/-- Times that are hidden. -/
def hidden : Elapsed := ⟨"#", "#"⟩

/-- How the time of a parse is told where times are hidden. -/
def timingLine : String := "Parsing time: # ms (# µs)"

/-- The characters without the lines that tell times. -/
def withoutTimings : List Char → List Char :=
  without (timingLine.toList ++ ['\n'])

variable {line : List Char} {c : Char}

theorem withoutTimings_timing (rest : List Char) :
    withoutTimings (timingLine.toList ++ '\n' :: rest) = withoutTimings rest := by
  have hword : timingLine.toList ++ '\n' :: rest = timingLine.toList ++ ['\n'] ++ rest := by simp
  rw [withoutTimings, hword]
  exact without_word (by simp) rest

/-- A line stays if it ends with another character. -/
theorem withoutTimings_line (hline : '\n' ∉ line) (hlast : [c] <:+ line) (hc : c ≠ ')')
    (rest : List Char) :
    withoutTimings (line ++ '\n' :: rest) = line ++ '\n' :: withoutTimings rest := by
  have hcut : '\n' ∉ timingLine.toList := by decide
  refine without_line hcut hline (fun hsuffix => hc ?_) rest
  have htiming : [')'] <:+ timingLine.toList := ⟨"Parsing time: # ms (# µs".toList, rfl⟩
  obtain ⟨front, hfront⟩ := hlast
  obtain ⟨front', hfront'⟩ := htiming.trans hsuffix
  have hlasts := congrArg List.getLast? (hfront.trans hfront'.symm)
  simpa using hlasts

section Reports

variable (target : String) (index : Nat) (tokens : List String)

/-- A report as JSON is a line that ends with a brace. -/
theorem withoutTimings_json (s : State (List String)) (rest : List Char) :
    withoutTimings ((s.report true).toList ++ '\n' :: rest) =
      (s.report true).toList ++ '\n' :: withoutTimings rest := by
  have hline : '\n' ∉ s.json.text.toList := lineFeeds_eq_zero_iff.1 (Json.lineFeeds_text s.json)
  have hbrace : ['\x7d'] <:+ s.json.text.toList := by
    rw [State.json, Json.toList_text_obj, ← List.append_assoc]
    exact List.suffix_append _ _
  exact withoutTimings_line hline hbrace (by decide) rest

/-- The summary of a success is a line that ends with a bracket. -/
theorem withoutTimings_summary (rest : List Char) :
    withoutTimings ((State.summary ⟨target, index, .ok tokens⟩).toList ++ '\n' :: rest) =
      (State.summary ⟨target, index, .ok tokens⟩).toList ++ '\n' :: withoutTimings rest := by
  have htokens : lineFeeds (inspect tokens) = 0 :=
    lineFeeds_inspect_list fun text _ => lineFeeds_quoted text
  have hline : lineFeeds (State.summary ⟨target, index, .ok tokens⟩) = 0 := by
    simp only [State.summary, lineFeeds_append, lineFeeds_toString, htokens]
    decide
  have hbracket : [']'] <:+ (State.summary ⟨target, index, .ok tokens⟩).toList := by
    rw [State.summary, String.toList_append, toList_inspect_list, ← List.append_assoc,
      ← List.append_assoc]
    exact List.suffix_append _ _
  exact withoutTimings_line (lineFeeds_eq_zero_iff.1 hline) hbracket (by decide) rest

/-- What a success left is told on a line that ends with a quote. -/
theorem withoutTimings_unparsed (text : String) (rest : List Char) :
    withoutTimings ("  unparsed: ".toList ++ (quoted text).toList ++ '\n' :: rest) =
      "  unparsed: ".toList ++ (quoted text).toList ++ '\n' :: withoutTimings rest := by
  have hquoted := lineFeeds_eq_zero_iff.1 (lineFeeds_quoted text)
  have hline : '\n' ∉ "  unparsed: ".toList ++ (quoted text).toList := by simpa using hquoted
  have hquote : ['"'] <:+ "  unparsed: ".toList ++ (quoted text).toList := by
    rw [toList_quoted, ← List.append_assoc, ← List.append_assoc]
    exact List.suffix_append _ _
  exact withoutTimings_line hline hquote (by decide) rest

/-- So a report of a success stays. -/
theorem withoutTimings_report (asJson : Bool) (rest : List Char) :
    withoutTimings
        ((State.report ⟨target, index, .ok tokens⟩ asJson).toList ++ '\n' :: rest) =
      (State.report ⟨target, index, .ok tokens⟩ asJson).toList ++ '\n' :: withoutTimings rest := by
  cases asJson with
  | true => exact withoutTimings_json _ rest
  | false =>
    have hsummary := withoutTimings_summary target index tokens
    have hreport : (State.report ⟨target, index, .ok tokens⟩ false).toList =
        (State.summary ⟨target, index, .ok tokens⟩).toList ++
          (State.details (⟨target, index, .ok tokens⟩ : State (List String))).toList := by
      simp [State.report]
    rw [hreport, State.details]
    by_cases hrest : (⟨target, index, .ok tokens⟩ : State (List String)).remaining = ""
    · rw [if_pos hrest]
      simpa using hsummary rest
    · have hunparsed := withoutTimings_unparsed
        (⟨target, index, .ok tokens⟩ : State (List String)).remaining rest
      have hline : "\n  unparsed: ".toList = '\n' :: "  unparsed: ".toList := rfl
      rw [if_neg hrest, String.toList_append, hline, List.append_assoc, List.cons_append,
        List.cons_append, hsummary, hunparsed]
      simp only [List.append_assoc, List.cons_append]

end Reports

/-! ## What is written -/

/-- What is written of pieces where times are hidden. -/
def written (pieces : List Piece) : List Char :=
  pieces.flatMap fun piece => (Piece.text hidden piece).toList

theorem toList_text (t : Transcript) : (t.text hidden).toList = written t.pieces := by
  rw [Transcript.text, String.toList_join, List.flatMap_map, written]

theorem written_cons (piece : Piece) (pieces : List Piece) :
    written (piece :: pieces) = (Piece.text hidden piece).toList ++ written pieces := rfl

theorem written_singleton (piece : Piece) :
    written [piece] = (Piece.text hidden piece).toList := by
  rw [written_cons]
  exact List.append_nil _

theorem written_append (pieces pieces' : List Piece) :
    written (pieces ++ pieces') = written pieces ++ written pieces' :=
  List.flatMap_append

theorem toList_text_prompt (session : Session) :
    (Piece.text hidden (.prompt session)).toList =
      "(".toList ++ Nat.toDigits 10 session.parsed ++ ") weft [".toList ++
        session.grammar.name.toList ++ "] | ".toList := by
  show ("(" ++ toString session.parsed ++ ") weft [" ++ session.grammar.name ++ "] | ").toList = _
  rw [Nat.toString_eq_ofList_toDigits]
  simp only [String.toList_append, String.toList_ofList]

theorem toList_text_unknownGrammar (name : String) :
    (Piece.text hidden (.unknownGrammar name)).toList =
      "ERROR: unknown grammar '".toList ++ name.toList ++ ['\x27'] ++ ['\n'] := by
  show ("ERROR: unknown grammar '" ++ name ++ "'\n").toList = _
  simp only [String.toList_append, List.append_assoc]
  rfl

theorem toList_text_timing : (Piece.text hidden .timing).toList = timingLine.toList ++ ['\n'] := by
  decide

theorem toList_text_report (text : String) :
    (Piece.text hidden (.report text)).toList = text.toList ++ ['\n'] := by
  rw [text_report, String.toList_append]
  rfl

theorem toList_text_farewell :
    (Piece.text hidden .farewell).toList = "exit".toList ++ ['\n'] := by
  decide

/-- A prompt stays, as it does not have the first character of the line. -/
theorem withoutTimings_prompt (session : Session) (rest : List Char) :
    withoutTimings ((Piece.text hidden (.prompt session)).toList ++ rest) =
      (Piece.text hidden (.prompt session)).toList ++ withoutTimings rest := by
  have hdigits : 'P' ∉ Nat.toDigits 10 session.parsed := by
    intro hmem
    obtain ⟨d, hd⟩ := exists_of_mem_toDigits (by decide) hmem
    exact Nat.digitChar_ne 'P' (by decide) hd
  have hname : 'P' ∉ session.grammar.name.toList := by
    cases session.grammar with
    | words => decide
    | greetings => decide
  have hprompt : 'P' ∉ (Piece.text hidden (.prompt session)).toList := by
    rw [toList_text_prompt]
    simp only [List.mem_append, hdigits, hname, or_false]
    decide
  have hword : timingLine.toList ++ ['\n'] = 'P' :: "arsing time: # ms (# µs)\n".toList := by
    simp [timingLine]
  rw [withoutTimings, hword]
  exact without_append_of_notMem hprompt

/-- Of what is written about an event the timing goes, and the rest stays. -/
theorem withoutTimings_event (asJson : Bool) {e : Event} (h : e.OneLine) (rest : List Char) :
    withoutTimings (written (e.pieces ⟨asJson, true⟩) ++ rest) =
      written (e.pieces ⟨asJson, false⟩) ++ withoutTimings rest := by
  cases e with
  | prompt session =>
    simp only [Event.pieces, written_singleton]
    exact withoutTimings_prompt session rest
  | unknownGrammar name =>
    have hline : '\n' ∉ "ERROR: unknown grammar '".toList ++ name.toList ++ ['\x27'] := by
      simpa [Event.OneLine] using h
    have hquote : ['\x27'] <:+ "ERROR: unknown grammar '".toList ++ name.toList ++ ['\x27'] :=
      List.suffix_append _ _
    have hkept := withoutTimings_line hline hquote (by decide) rest
    simp only [Event.pieces, written_singleton, toList_text_unknownGrammar]
    rw [List.append_assoc _ ['\n'], List.append_assoc _ ['\n']]
    exact hkept
  | parsed grammar text =>
    have hok := grammar.isError_run text
    simp only [Event.pieces, if_true, Bool.false_eq_true, if_false, List.nil_append,
      written_append, written_singleton, toList_text_timing, toList_text_report]
    generalize grammar.run text = s at hok ⊢
    obtain ⟨target, index, failure | tokens⟩ := s
    · simp at hok
    · have hkept := withoutTimings_report target index tokens asJson rest
      simp only [List.append_assoc, List.cons_append, List.nil_append]
      rw [withoutTimings_timing]
      exact hkept
  | farewell =>
    have hline : '\n' ∉ "exit".toList := by decide
    have hkept := withoutTimings_line hline ⟨"exi".toList, rfl⟩ (by decide) rest
    simp only [Event.pieces, written_singleton, toList_text_farewell]
    rw [List.append_assoc, List.append_assoc]
    exact hkept

/-- By induction on the events. -/
theorem withoutTimings_events (asJson : Bool) {events : List Event} (h : ∀ e ∈ events, e.OneLine) :
    withoutTimings (written (events.flatMap (Event.pieces ⟨asJson, true⟩))) =
      written (events.flatMap (Event.pieces ⟨asJson, false⟩)) := by
  induction events with
  | nil => simp [written, withoutTimings, without]
  | cons e events ih =>
    obtain ⟨he, hevents⟩ := List.forall_mem_cons.1 h
    have hstep := withoutTimings_event asJson he
      (written (events.flatMap (Event.pieces ⟨asJson, true⟩)))
    rw [List.flatMap_cons, List.flatMap_cons, written_append, written_append, hstep, ih hevents]

/-! ## The law -/

/-- Whether the piece is a prompt, an error about a name, or the farewell. -/
def Piece.isFixed : Piece → Bool
  | .prompt _ => true
  | .unknownGrammar _ => true
  | .timing => false
  | .report _ => false
  | .farewell => true

theorem filter_pieces (style style' : Style) (e : Event) :
    (e.pieces style).filter Piece.isFixed = (e.pieces style').filter Piece.isFixed := by
  cases e with
  | prompt session => rfl
  | unknownGrammar name => rfl
  | parsed grammar text =>
    cases hverbose : style.verbose <;> cases hverbose' : style'.verbose <;>
      simp [Event.pieces, hverbose, hverbose', Piece.isFixed]
  | farewell => rfl

/-- **What the style decides.**  There is one account of a session over any
bytes, and its transcript in each style is that account with every parse
reported in the style, behind its time if the style is verbose.  So all styles
end in the same way and write the same prompts, the same errors about names and
the same farewell.  And where times are hidden, what a verbose session writes is
what the other writes, once the lines that tell times are cut out by their
text. -/
theorem style_decides_reports (byName : String → Option Grammar) (first : Grammar)
    (input : List UInt8) :
    (∀ style, run byName style first input =
      (account byName (start first) ((cutLines input).map decode?)).transcript style) ∧
    (∀ style style',
      (run byName style first input).ending = (run byName style' first input).ending ∧
      (run byName style first input).pieces.filter Piece.isFixed =
        (run byName style' first input).pieces.filter Piece.isFixed) ∧
    ∀ asJson, withoutLine timingLine ((run byName ⟨asJson, true⟩ first input).text hidden) =
      (run byName ⟨asJson, false⟩ first input).text hidden := by
  have hrun : ∀ style, run byName style first input =
      (account byName (start first) ((cutLines input).map decode?)).transcript style := fun style =>
    transcript_eq_account style (start first) _
  have hlines : ∀ line, some line ∈ (cutLines input).map decode? →
      '\n' ∉ line.toList.dropLast := by
    intro line hline
    obtain ⟨bytes, hbytes, htext⟩ := List.mem_map.1 hline
    exact lineFeed_notMem_dropLast_text hbytes htext
  have hone := @account_oneLine byName (start first) _ hlines
  refine ⟨hrun, fun style style' => ?_, fun asJson => ?_⟩
  · rw [hrun style, hrun style']
    refine ⟨rfl, ?_⟩
    simp only [Account.transcript, List.filter_flatMap, filter_pieces style style']
  · have hcut := withoutTimings_events asJson hone
    apply String.toList_inj.1
    rw [withoutLine, String.toList_ofList, toList_text, toList_text, hrun, hrun]
    exact hcut

end Session

end Parsing
