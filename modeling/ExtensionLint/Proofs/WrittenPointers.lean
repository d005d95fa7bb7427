import ExtensionLint.Proofs.DecimalDigits
import ExtensionLint.Proofs.Pointer

/-!
Pointers that are read as a path and written again. A path keeps the value of a number only, so a token
with a plus sign or with superfluous zeros comes out without them; every other token comes out as it
was. Where no token changes, the written pointer leads to what the first one leads to in every value;
where one does, the first leads through a member of that name, and the second may lead nowhere.
-/

namespace ExtensionLint.Json

namespace Pointer

/-- Holds of tokens that every walk takes alike: those that are no number, and numbers as the standard
writes them. -/
def IsPlain (token : List Char) : Prop := canonicalIndex? token = looseIndex? token

/-- Holds of pointers in which every number is written as the standard writes it. -/
def Plain (pointer : String) : Prop := ∀ token ∈ (segments pointer).drop 1, IsPlain token

instance (pointer : String) : Decidable (Plain pointer) := by
  unfold Plain IsPlain
  infer_instance

section Tokens

variable {token : List Char} {n : Nat}

/-- The standard takes the digits of a number for an index, and nothing else. -/
theorem canonicalIndex?_eq_some_iff :
    canonicalIndex? token = some n ↔ token = Nat.toDigits 10 n ∧ n ≤ Text.word64Max := by
  constructor
  · intro h
    rw [canonicalIndex?.eq_def] at h
    split at h
    · cases h
    · cases h
    · next hplus hzero =>
        obtain ⟨digits, rfl | rfl, hdigits⟩ := Text.natural?_eq_some_iff.mp h
        · obtain ⟨hne, hall, rfl, hlimit⟩ := Text.digits?_eq_some_iff.mp hdigits
          refine ⟨?_, hlimit⟩
          obtain ⟨c, rest, rfl⟩ := List.exists_cons_of_ne_nil hne
          refine (Text.toDigits_decimalValue hall ?_).symm
          cases rest with
          | nil => exact .inr rfl
          | cons d rest => exact .inl fun hc => hzero d rest (by rw [hc])
        · exact absurd rfl (hplus digits)
  · rintro ⟨rfl, hlimit⟩
    have hloose := Text.natural?_toDigits hlimit
    rcases Nat.eq_zero_or_pos n with rfl | hpos
    · rfl
    · obtain ⟨c, digits, hcons, hne⟩ := Text.exists_cons_toDigits hpos
      have hdigit : c.isDigit = true :=
        Text.isDigit_of_mem_toDigits (hcons ▸ List.mem_cons_self)
      rw [hcons] at hloose ⊢
      rw [← hloose]
      apply canonicalIndex?.eq_3
      · rintro rest heq
        obtain ⟨rfl, -⟩ := List.cons.inj heq
        exact absurd hdigit (by decide)
      · rintro d rest heq
        exact hne (List.cons.inj heq).1

/-- A token is plain if it is the digits of the number that it may be. -/
theorem isPlain_iff : IsPlain token ↔ ∀ n, looseIndex? token = some n → token = Nat.toDigits 10 n := by
  constructor
  · intro h n hloose
    exact (canonicalIndex?_eq_some_iff.mp (h.trans hloose)).1
  · intro h
    rw [IsPlain]
    cases hloose : looseIndex? token with
    | some n =>
        obtain ⟨digits, -, hdigits⟩ := Text.natural?_eq_some_iff.mp hloose
        have hlimit := (Text.digits?_eq_some_iff.mp hdigits).2.2.2
        exact canonicalIndex?_eq_some_iff.mpr ⟨h n hloose, hlimit⟩
    | none =>
        rw [Option.eq_none_iff_forall_ne_some]
        intro n hcanonical
        obtain ⟨rfl, hlimit⟩ := canonicalIndex?_eq_some_iff.mp hcanonical
        exact Option.some_ne_none n ((Text.natural?_toDigits hlimit).symm.trans hloose)

theorem replaceEscape_eq_self {mark by_ : Char} {s : List Char} (h : '~' ∉ s) :
    replaceEscape mark by_ s = s := by
  induction s with
  | nil => rfl
  | cons c s ih =>
      obtain ⟨hne, hrest⟩ := not_or.mp (mt List.mem_cons.mpr h)
      rw [replaceEscape_cons_of_ne (Ne.symm hne), ih hrest]

theorem unescape_eq_self (h : '~' ∉ token) : unescape token = token := by
  rw [unescape, replaceEscape_eq_self h, replaceEscape_eq_self h]

theorem tilde_not_mem_of_digits (h : ∀ c ∈ token, c.isDigit = true) : '~' ∉ token :=
  fun hmem => absurd (h '~' hmem) (by decide)

/-- Reading a token as a step and writing it again keeps its meaning exactly if the token is plain. -/
theorem unescape_write_ofToken_iff :
    unescape (Path.Step.ofToken token).write = unescape token ↔ IsPlain token := by
  rw [isPlain_iff, Path.Step.ofToken]
  cases hloose : looseIndex? token with
  | none => simp [Path.Step.write, unescape_escape]
  | some n =>
      obtain ⟨digits, htoken, hdigits⟩ := Text.natural?_eq_some_iff.mp hloose
      have htilde : '~' ∉ digits :=
        tilde_not_mem_of_digits (Text.digits?_eq_some_iff.mp hdigits).2.1
      have hplain : '~' ∉ token := by
        rcases htoken with rfl | rfl <;> simp [htilde]
      have hwritten : '~' ∉ Nat.toDigits 10 n :=
        tilde_not_mem_of_digits fun c => Text.isDigit_of_mem_toDigits
      simp [Path.Step.write, unescape_eq_self hplain, unescape_eq_self hwritten, eq_comm]

end Tokens

/-- The tokens of a pointer are its segments after the first. -/
theorem tokens?_eq_some {pointer : String} {tokens : List (List Char)}
    (h : tokens? pointer = some tokens) : tokens = ((segments pointer).drop 1).map unescape := by
  rw [tokens?] at h
  rw [segments]
  split at h
  · next hempty =>
      rw [hempty]
      exact (Option.some.inj h).symm
  · next rest hslash =>
      rw [hslash]
      exact (Option.some.inj h).symm
  · cases h

theorem tokens?_pointer (path : Path) :
    tokens? path.pointer = some (path.map fun step => unescape step.write) := by
  have hsegments := Path.segments_pointer path
  cases path with
  | nil => rfl
  | cons step path =>
      have hslash : (Path.pointer (step :: path)).toList =
          '/' :: (step.write ++ Path.write path) := by
        rw [Path.pointer, String.toList_ofList]
        rfl
      rw [segments, hslash] at hsegments
      rw [tokens?, hslash]
      have hrest : Text.splitBy (· == '/') (step.write ++ Path.write path) =
          (step :: path).map Path.Step.write := (List.cons.inj hsegments).2
      simp only [hrest, List.map_map]
      rfl

end Pointer

open Pointer

/-- A pointer that is read as a path and written again keeps its tokens if they are plain. -/
theorem tokens?_pointer_ofPointer {pointer : String} {tokens : List (List Char)}
    (h : tokens? pointer = some tokens) :
    tokens? (Path.ofPointer pointer).pointer = some tokens ↔ Plain pointer := by
  rw [tokens?_pointer, tokens?_eq_some h, Path.ofPointer, List.map_map, Option.some.injEq,
    List.map_inj_left]
  exact forall₂_congr fun token _ => unescape_write_ofToken_iff

/-- Objects inside one another, each with one member, around a value. -/
def nested (tokens : List (List Char)) (value : Json) : Json :=
  tokens.foldr (fun token inner => .object [(String.ofList token, inner)]) value

theorem walk?_nested {index? : List Char → Option Nat} (tokens : List (List Char)) (value : Json) :
    walk? index? (nested tokens value) tokens = some value := by
  induction tokens with
  | nil => rfl
  | cons token tokens ih => simpa [walk?, nested, step?] using ih

/-- In objects with one member each, no other walk leads as far. -/
theorem walk?_nested_of_ne {index? : List Char → Option Nat} {tokens others : List (List Char)}
    (value : Json) (hlength : others.length = tokens.length) (hne : others ≠ tokens) :
    walk? index? (nested tokens value) others = none := by
  induction tokens generalizing others with
  | nil => exact absurd (List.length_eq_zero_iff.mp hlength) hne
  | cons token tokens ih =>
      cases others with
      | nil => cases hlength
      | cons other others =>
          by_cases hother : other = token
          · subst hother
            have hrest : others ≠ tokens := fun heq => hne (by rw [heq])
            simpa [walk?, nested, step?] using ih (Nat.succ.inj hlength) hrest
          · have hname : (String.ofList other == String.ofList token) = false := by
              simpa using fun heq => hother (String.ofList_injective heq)
            simp [walk?, nested, step?, List.lookup_cons, hname]

theorem pointer?_of_plain {document value : Json} {pointer : String} (hplain : Plain pointer)
    (h : document.pointer? pointer = some value) :
    document.pointer? (Path.ofPointer pointer).pointer = some value := by
  obtain ⟨tokens, htokens, hwalk⟩ := Option.bind_eq_some_iff.mp h
  rw [pointer?, (tokens?_pointer_ofPointer htokens).mpr hplain]
  exact hwalk

/-- A pointer that is not plain leads somewhere in an object in which its rewritten form leads
nowhere. -/
theorem exists_pointer?_eq_none {document : Json} {pointer : String} (hplain : ¬Plain pointer)
    (hleads : (document.pointer? pointer).isSome) (value : Json) :
    ∃ members, (object members).pointer? pointer = some value ∧
      (object members).pointer? (Path.ofPointer pointer).pointer = none := by
  obtain ⟨found, hfound⟩ := Option.isSome_iff_exists.mp hleads
  obtain ⟨tokens, htokens, -⟩ := Option.bind_eq_some_iff.mp hfound
  obtain ⟨others, hothers, hlength⟩ : ∃ others,
      tokens? (Path.ofPointer pointer).pointer = some others ∧ others.length = tokens.length := by
    refine ⟨_, tokens?_pointer _, ?_⟩
    simp [tokens?_eq_some htokens, Path.ofPointer]
  have hne : others ≠ tokens := by
    rintro rfl
    exact hplain ((tokens?_pointer_ofPointer htokens).mp hothers)
  have hfirst : (nested tokens value).pointer? pointer = some value := by
    rw [pointer?, htokens]
    exact walk?_nested tokens value
  have hsecond : (nested tokens value).pointer? (Path.ofPointer pointer).pointer = none := by
    rw [pointer?, hothers]
    exact walk?_nested_of_ne value hlength hne
  cases tokens with
  | nil => exact absurd (List.length_eq_zero_iff.mp hlength) hne
  | cons token tokens => exact ⟨_, hfirst, hsecond⟩

end ExtensionLint.Json
