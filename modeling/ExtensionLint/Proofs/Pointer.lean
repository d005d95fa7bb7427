import ExtensionLint.Json.Path
import ExtensionLint.Proofs.Splitting
import Mathlib.Tactic.SplitIfs

/-!
Pointers written from paths. A step is written without a slash, so the segments of a pointer are the
written steps, and reading a pointer back reads each step by itself. A name comes back as it was
unless its token is a number.
-/

namespace ExtensionLint

namespace Json

namespace Pointer

theorem escape_cons (c : Char) (name : List Char) :
    escape (c :: name) =
      (if c = '~' then ['~', '0'] else if c = '/' then ['~', '1'] else [c]) ++ escape name := by
  by_cases htilde : c = '~'
  · subst htilde
    rfl
  · simp [escape, htilde]

theorem slash_not_mem_escape (name : List Char) : '/' ∉ escape name := by
  induction name with
  | nil => simp [escape]
  | cons c name ih =>
      rw [escape_cons, List.mem_append, not_or]
      refine ⟨?_, ih⟩
      split_ifs <;> simp_all [eq_comm]

/-- A token without escapes is written for its own name only. -/
theorem eq_of_escape_eq {name token : List Char} (htoken : '~' ∉ token)
    (h : escape name = token) : name = token := by
  induction name generalizing token with
  | nil => exact h
  | cons c name ih =>
      rw [escape_cons] at h
      subst h
      rw [List.mem_append, not_or] at htoken
      split_ifs at htoken ⊢ with htilde hslash
      · simp at htoken
      · simp at htoken
      · rw [List.singleton_append, ← ih htoken.2 rfl]

theorem replaceEscape_cons_of_ne {mark by_ c : Char} (hc : c ≠ '~') (s : List Char) :
    replaceEscape mark by_ (c :: s) = c :: replaceEscape mark by_ s := by
  cases s with
  | nil => rfl
  | cons d s => simp [replaceEscape, hc]

theorem unescape_escape (name : List Char) : unescape (escape name) = name := by
  induction name with
  | nil => rfl
  | cons c name ih =>
      rw [unescape] at ih ⊢
      rw [escape_cons]
      split_ifs with htilde hslash
      · subst htilde
        have hzero : replaceEscape '1' '/' ('0' :: escape name) =
            '0' :: replaceEscape '1' '/' (escape name) := replaceEscape_cons_of_ne (by decide) _
        simp [replaceEscape, hzero, ih]
      · subst hslash
        simp [replaceEscape, replaceEscape_cons_of_ne, ih]
      · rw [List.singleton_append, replaceEscape_cons_of_ne htilde,
          replaceEscape_cons_of_ne htilde, ih]

end Pointer

namespace Path

open Pointer

theorem slash_not_mem_write (step : Step) : '/' ∉ step.write := by
  cases step with
  | key name => exact slash_not_mem_escape name.toList
  | index position =>
      intro h
      have hdigit := Nat.isDigit_of_mem_toDigits (by decide) (by decide) h
      exact absurd hdigit (by decide)

theorem segments_pointer (path : Path) : segments path.pointer = [] :: path.map Step.write := by
  rw [segments, pointer, write, String.toList_ofList]
  refine Text.splitBy_flatMap (by simp) Step.write path ?_
  intro step _ c hc
  have hne : c ≠ '/' := fun h => slash_not_mem_write step (h ▸ hc)
  simp [hne]

/-- Reading a written path back reads each step by itself. -/
theorem ofPointer_pointer (path : Path) :
    ofPointer path.pointer = path.map fun step => Step.ofToken step.write := by
  rw [ofPointer, segments_pointer]
  simp

theorem ofToken_write_key {name : String} (hname : looseIndex? (escape name.toList) = none) :
    Step.ofToken (Step.write (.key name)) = .key name := by
  simp [Step.ofToken, Step.write, hname, unescape_escape]

/-- A token without escapes that is no number is written for one name only. -/
theorem eq_key_of_write_eq {step : Step} {token : List Char} (htilde : '~' ∉ token)
    {c : Char} (hc : c ∈ token) (hdigit : c.isDigit = false) (h : step.write = token) :
    step = .key (String.ofList token) := by
  cases step with
  | key name =>
      have hname := eq_of_escape_eq htilde h
      rw [← hname, String.ofList_toList]
  | index position =>
      rw [← h] at hc
      have := Nat.isDigit_of_mem_toDigits (by decide) (by decide) hc
      simp [this] at hdigit

end Path
end Json
end ExtensionLint
