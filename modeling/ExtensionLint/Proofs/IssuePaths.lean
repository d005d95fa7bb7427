import ExtensionLint.Issue.Basic
import ExtensionLint.Proofs.WrittenPointers

/-!
Paths of issues that are written as pointers and read back. A step comes back if it is a position or a
name that is no number, for escaping changes only names that are no number either. What is read from a
pointer is such a step in every case: a token with an escape stands for a name with a tilde or a slash.
So the pointer of an issue stands for the path of the issue, whatever pointer the path came from.
-/

namespace ExtensionLint

namespace Json

namespace Pointer

section Tokens

variable {token name s : List Char} {c mark by_ : Char}

theorem escape_eq_self (htilde : '~' ∉ name) (hslash : '/' ∉ name) : escape name = name := by
  induction name with
  | nil => rfl
  | cons c name ih =>
      rw [List.mem_cons, not_or] at htilde hslash
      rw [escape_cons, if_neg (Ne.symm htilde.1), if_neg (Ne.symm hslash.1), ih htilde.2 hslash.2]
      rfl

/-- An escaped name without tildes is the name itself, which then has no slashes either. -/
theorem tilde_mem_escape (h : '~' ∈ name ∨ '/' ∈ name) : '~' ∈ escape name := by
  refine Classical.byContradiction fun htilde => ?_
  have hname : name = escape name := eq_of_escape_eq htilde rfl
  rcases h with h | h
  · exact htilde (hname ▸ h)
  · exact slash_not_mem_escape name (hname ▸ h)

theorem looseIndex?_eq_none_of_mem (hc : c ∈ token) (hdigit : c.isDigit = false) (hplus : c ≠ '+') :
    looseIndex? token = none := by
  rw [Option.eq_none_iff_forall_ne_some]
  intro n hn
  obtain ⟨digits, htoken, hdigits⟩ := Text.natural?_eq_some_iff.mp hn
  have hmem : c ∈ digits := by
    rcases htoken with rfl | rfl
    · exact hc
    · exact (List.mem_cons.mp hc).resolve_left hplus
  have := (Text.digits?_eq_some_iff.mp hdigits).2.1 c hmem
  simp [this] at hdigit

theorem looseIndex?_eq_none_of_special (h : '~' ∈ token ∨ '/' ∈ token) : looseIndex? token = none := by
  rcases h with h | h
  · exact looseIndex?_eq_none_of_mem h (by decide) (by decide)
  · exact looseIndex?_eq_none_of_mem h (by decide) (by decide)

/-- Escaping a name makes no number of it and takes none away. -/
theorem looseIndex?_escape (name : List Char) : looseIndex? (escape name) = looseIndex? name := by
  by_cases h : '~' ∈ name ∨ '/' ∈ name
  · rw [looseIndex?_eq_none_of_special h, looseIndex?_eq_none_of_special (.inl (tilde_mem_escape h))]
  · rw [escape_eq_self (not_or.mp h).1 (not_or.mp h).2]

theorem mem_replaceEscape (hc : c ∈ s) (htilde : c ≠ '~') (hmark : c ≠ mark) :
    c ∈ replaceEscape mark by_ s := by
  fun_induction replaceEscape mark by_ s with
  | case1 => exact hc
  | case2 => exact hc
  | case3 first second rest hescape ih =>
      simp only [Bool.and_eq_true, decide_eq_true_eq] at hescape
      have hrest : c ∈ rest := by simpa [hescape.1, hescape.2, htilde, hmark] using hc
      exact List.mem_cons_of_mem _ (ih hrest)
  | case4 first second rest hescape ih =>
      rcases List.mem_cons.mp hc with rfl | hc
      · exact List.mem_cons_self
      · exact List.mem_cons_of_mem _ (ih hc)

/-- A tilde is kept, or it starts an escape. -/
theorem tilde_mem_replaceEscape (h : '~' ∈ s) :
    '~' ∈ replaceEscape mark by_ s ∨ by_ ∈ replaceEscape mark by_ s := by
  fun_induction replaceEscape mark by_ s with
  | case1 => exact .inl h
  | case2 => exact .inl h
  | case3 => exact .inr List.mem_cons_self
  | case4 first second rest hescape ih =>
      rcases List.mem_cons.mp h with rfl | h
      · exact .inl List.mem_cons_self
      · exact (ih h).imp (List.mem_cons_of_mem _) (List.mem_cons_of_mem _)

/-- A token with a tilde stands for a name with a tilde or a slash. -/
theorem special_mem_unescape (h : '~' ∈ token) : '~' ∈ unescape token ∨ '/' ∈ unescape token := by
  rw [unescape]
  rcases tilde_mem_replaceEscape h with htilde | hslash
  · exact .inl ((tilde_mem_replaceEscape htilde).elim id id)
  · exact .inr (mem_replaceEscape hslash (by decide) (by decide))

theorem looseIndex?_unescape (h : looseIndex? token = none) : looseIndex? (unescape token) = none := by
  by_cases htilde : '~' ∈ token
  · exact looseIndex?_eq_none_of_special (special_mem_unescape htilde)
  · rw [unescape_eq_self htilde, h]

end Tokens

end Pointer

namespace Path

open Pointer

/-- Holds of the steps that a pointer can be read as: names that are no number of 64 bits, and such
numbers. -/
def Step.IsLegible : Step → Prop
  | .key name => looseIndex? name.toList = none
  | .index position => position ≤ Text.word64Max

instance (step : Step) : Decidable step.IsLegible := by
  cases step <;> (unfold Step.IsLegible; infer_instance)

theorem isLegible_ofToken (token : List Char) : (Step.ofToken token).IsLegible := by
  rw [Step.ofToken]
  split
  · next position hposition =>
      obtain ⟨digits, -, hdigits⟩ := Text.natural?_eq_some_iff.mp hposition
      exact (Text.digits?_eq_some_iff.mp hdigits).2.2.2
  · next hnone =>
      rw [Step.IsLegible, String.toList_ofList]
      exact looseIndex?_unescape hnone

/-- The legible steps are those that are read as they are written. -/
theorem ofToken_write_iff {step : Step} : Step.ofToken step.write = step ↔ step.IsLegible := by
  constructor
  · intro h
    rw [← h]
    exact isLegible_ofToken step.write
  · intro h
    cases step with
    | key name => exact ofToken_write_key ((looseIndex?_escape _).trans h)
    | index position =>
        have hposition : looseIndex? (Nat.toDigits 10 position) = some position :=
          Text.natural?_toDigits h
        simp only [Step.ofToken, Step.write, hposition]

theorem ofPointer_pointer_iff {path : Path} :
    ofPointer path.pointer = path ↔ ∀ step ∈ path, step.IsLegible := by
  have hsame : ofPointer path.pointer = path ↔ ∀ step ∈ path, Step.ofToken step.write = step := by
    rw [ofPointer_pointer]
    conv => lhs; rhs; rw [← List.map_id path]
    exact List.map_inj_left
  rw [hsame]
  exact forall₂_congr fun step _ => ofToken_write_iff

theorem ofPointer_pointer_ofPointer (pointer : String) :
    ofPointer (ofPointer pointer).pointer = ofPointer pointer := by
  rw [ofPointer_pointer_iff, ofPointer]
  intro step hstep
  obtain ⟨token, -, rfl⟩ := List.mem_map.mp hstep
  exact isLegible_ofToken token

end Path
end Json

namespace Issue

open Json (Path)

/-- A path comes back from its pointer exactly if all of its steps are legible, and the path that any
pointer is read as comes back. So an issue that is raised at a pointer is the issue raised at its own
pointer, however the first pointer was written. -/
theorem pointer_names_path :
    (∀ path : Path, Path.ofPointer path.pointer = path ↔ ∀ step ∈ path, step.IsLegible) ∧
      (∀ pointer, Path.ofPointer (Path.ofPointer pointer).pointer = Path.ofPointer pointer) ∧
      ∀ kind pointer value message,
        atPointer kind (atPointer kind pointer value message).pointer value message =
          atPointer kind pointer value message := by
  refine ⟨fun path => Path.ofPointer_pointer_iff, Path.ofPointer_pointer_ofPointer, ?_⟩
  intro kind pointer value message
  simp only [atPointer, Issue.pointer, Path.ofPointer_pointer_ofPointer]

/-- A number comes out as its digits, and a tilde that starts no escape comes out escaped. -/
example : (Path.ofPointer "/icons~2/+016/~01").pointer = "/icons~02/16/~01" := by decide

end Issue
end ExtensionLint
