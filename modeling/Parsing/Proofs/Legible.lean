/-
Parsing.Proofs.Legible — a report for a reader tells the whole input.

A run of a grammar takes its input apart and leaves the rest, so the values
and what was left make up the input.  The report writes the offset, the
values and the rest in this order.  The values and the rest are quoted, and
each part can be told from what follows it (`Parsing.Proofs.PrefixFree`),
whatever quotes, brackets or line feeds the input holds.  The offset ends
at its colon.
-/
import Mathlib
import Parsing.Report
import Parsing.Proofs.PrefixFree
import Parsing.Proofs.Tokens

namespace Parsing

open Text

variable {tokens tokens' : List String} {rest rest' : String}

/-- The line about the input that a success left, as characters. -/
def unparsedLine (rest : String) : List Char :=
  if rest = "" then [] else "\n  unparsed: ".toList ++ (quoted rest).toList

theorem unparsedLine_inj (h : unparsedLine rest = unparsedLine rest') : rest = rest' := by
  unfold unparsedLine at h
  split at h <;> split at h
  · rename_i hrest hrest'
    rw [hrest, hrest']
  · simp at h
  · simp at h
  · have hquoted := List.append_cancel_left h
    exact (prefixFree_quoted (x := []) (y := []) (by simpa using hquoted)).1

/-- The report of a success that left `rest` behind its values. -/
theorem toList_report_tokens (tokens : List String) (rest : String) :
    (State.report ⟨String.join tokens ++ rest, (String.join tokens).utf8ByteSize, .ok tokens⟩
        false).toList =
      "ok @ ".toList ++ (Nat.toDigits 10 (String.join tokens).utf8ByteSize ++ [':']) ++
        (' ' :: ((inspect tokens).toList ++ unparsedLine rest)) := by
  have hdetails : (State.details (⟨String.join tokens ++ rest,
      (String.join tokens).utf8ByteSize, .ok tokens⟩ : State (List String))).toList =
        unparsedLine rest := by
    simp only [State.details, State.remaining_append, unparsedLine]
    split <;> simp
  simp only [State.report, Bool.false_eq_true, if_false, State.summary, String.toList_append,
    hdetails, Nat.toString_eq_ofList_toDigits, String.toList_ofList]
  simp

/-- The report tells values and rest. -/
theorem report_tokens_inj
    (h : State.report ⟨String.join tokens ++ rest, (String.join tokens).utf8ByteSize, .ok tokens⟩
        false =
      State.report ⟨String.join tokens' ++ rest', (String.join tokens').utf8ByteSize, .ok tokens'⟩
        false) : tokens = tokens' ∧ rest = rest' := by
  have hchars := congrArg String.toList h
  simp only [toList_report_tokens, List.append_assoc, List.append_cancel_left_eq] at hchars
  have hdigits : PrefixFree fun n => Nat.toDigits 10 n ++ [':'] :=
    prefixFree_toDigits (by decide) (by decide) fun d => Nat.digitChar_ne ':' (by decide)
  simp only [← List.append_assoc _ [':']] at hchars
  obtain ⟨-, hbody⟩ := hdigits hchars
  obtain ⟨htokens, hline⟩ := prefixFree_inspect_texts (List.cons.inj hbody).2
  exact ⟨htokens, unparsedLine_inj hline⟩

/-- **A report loses nothing.**  The reports of two runs of a grammar are
the same text only if the runs were on the same input. -/
theorem Grammar.report_eq_iff (g : Grammar) (s t : String) :
    (g.run s).report false = (g.run t).report false ↔ s = t := by
  constructor
  · intro h
    obtain ⟨tokens, rest, rfl, htokens⟩ := exists_tokens g.matchers s
    obtain ⟨tokens', rest', rfl, htokens'⟩ := exists_tokens g.matchers t
    have hrun : g.run (String.join tokens ++ rest) =
        ⟨String.join tokens ++ rest, (String.join tokens).utf8ByteSize, .ok tokens⟩ :=
      tokenizer_run_iff.2 ⟨rest, rfl, htokens⟩
    have hrun' : g.run (String.join tokens' ++ rest') =
        ⟨String.join tokens' ++ rest', (String.join tokens').utf8ByteSize, .ok tokens'⟩ :=
      tokenizer_run_iff.2 ⟨rest', rfl, htokens'⟩
    rw [hrun, hrun'] at h
    obtain ⟨rfl, rfl⟩ := report_tokens_inj h
    rfl
  · rintro rfl
    rfl

end Parsing
