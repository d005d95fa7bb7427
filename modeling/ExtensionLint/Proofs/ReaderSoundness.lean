import ExtensionLint.Json.Tolerant
import ExtensionLint.Proofs.Members
import ExtensionLint.Proofs.SoundValues

/-!
What the reader gives is sound. A token stands for a sound value, and the machine keeps all that it
has made sound: a member is put at its place among those before it, so the members of an object
ascend whatever the order in which the text has them. So every value that is read has ascending
members and integers of 64 bits.
-/

namespace ExtensionLint.Json

section Tokens

open Tolerant

/-- Holds of the tokens that stand for a sound value, if they stand for any. -/
def Token.Sound : Token → Prop
  | .number _ value => value.Sound Number.Fits
  | _ => True

theorem Number.fits_of_ofLiteral? {literal : Decimal.Literal} {n : Number}
    (h : Number.ofLiteral? literal = some n) : n.Fits := by
  unfold Number.ofLiteral? at h
  dsimp only at h
  split at h
  · next hnat =>
      obtain rfl := Option.some.inj h
      simp only [Bool.and_eq_true, decide_eq_true_eq] at hnat
      exact Number.fits_natCast hnat.2
  · split at h
    · next hnegative =>
        obtain rfl := Option.some.inj h
        simp only [Bool.and_eq_true, decide_eq_true_eq] at hnegative
        exact Number.fits_neg hnegative.2
    · obtain ⟨x, -, rfl⟩ := Option.map_eq_some_iff.mp h
      trivial

theorem sound_decimalValue (literal : Decimal.Literal) (text : String) :
    (decimalValue literal text).Sound Number.Fits := by
  unfold decimalValue
  split
  · next h => exact sound_number.mpr (Number.fits_of_ofLiteral? h)
  · exact sound_string text

theorem sound_hexValue (negative : Bool) (digits : List Char) (text : String) :
    (hexValue negative digits text).Sound Number.Fits := by
  unfold hexValue
  dsimp only
  split
  · next h =>
      have hmost : Text.hexadecimalValue digits ≤ 2 ^ 63 := h.trans (by decide)
      refine sound_number.mpr ?_
      cases negative with
      | true => exact Number.fits_neg hmost
      | false => exact Number.fits_natCast (hmost.trans (by decide))
  · exact sound_string text

theorem sound_of_scanSigned {sign : Option Char} {s rest : List Char} {token : Token}
    (h : scanSigned sign s = .ok (token, rest)) : token.Sound := by
  unfold scanSigned at h
  split at h
  · cases h
  · cases h
    exact sound_decimalValue _ _

theorem sound_of_scanHex {sign : Option Char} {mark : Char} {s rest : List Char} {token : Token}
    (h : scanHex sign mark s = .ok (token, rest)) : token.Sound := by
  unfold scanHex at h
  dsimp only at h
  split at h
  · cases h
  · cases h
    exact sound_hexValue _ _ _

theorem sound_of_scanNumber {s rest : List Char} {token : Token}
    (h : scanNumber s = .ok (token, rest)) : token.Sound := by
  unfold scanNumber scanMagnitude at h
  split at h
  · split at h
    · exact sound_of_scanHex h
    · exact sound_of_scanSigned h
  · exact sound_of_scanSigned h

theorem sound_of_punctuation? {c : Char} {token : Token} (h : punctuation? c = some token) :
    token.Sound := by
  cases token with
  | number text value =>
      unfold punctuation? at h
      repeat (split at h; · cases h)
      cases h
  | _ => trivial

theorem sound_of_scanKeyword? {s rest : List Char} {token : Token}
    (h : scanKeyword? s = some (token, rest)) : token.Sound := by
  obtain ⟨⟨word, found⟩, hknown, hfound⟩ :=
    List.exists_of_findSome?_eq_some (Option.filter_eq_some_iff.mp h).1
  obtain ⟨after, -, hpair⟩ := Option.map_eq_some_iff.mp hfound
  obtain ⟨rfl, rfl⟩ := Prod.mk.inj hpair
  simp only [keywords, List.mem_cons, Prod.mk.injEq, List.not_mem_nil, or_false] at hknown
  rcases hknown with ⟨-, rfl⟩ | ⟨-, rfl⟩ | ⟨-, rfl⟩ <;> trivial

theorem sound_of_scanWord {s rest : List Char} {token : Token}
    (h : scanWord s = .ok (token, rest)) : token.Sound := by
  unfold scanWord at h
  dsimp only at h
  split at h
  · cases h
  · cases h
    trivial

theorem sound_of_scan {s rest : List Char} {token : Token} (h : scan s = .ok (token, rest)) :
    token.Sound := by
  unfold scan at h
  split at h
  · cases h
  · split at h
    · next hpunctuation =>
        cases h
        exact sound_of_punctuation? hpunctuation
    · split at h
      · split at h
        · cases h
          trivial
        · split at h <;> cases h
      · split at h
        · exact sound_of_scanNumber h
        · split at h
          · next hkeyword =>
              cases h
              exact sound_of_scanKeyword? hkeyword
          · exact sound_of_scanWord h

def Lexeme.Sound : Lexeme → Prop
  | .token found _ => found.Sound
  | .bad _ => True

theorem sound_lexemes (text : List Char) : ∀ lexeme ∈ lexemes text, lexeme.Sound := by
  fun_induction lexemes text with
  | case1 | case3 => simp [Lexeme.Sound]
  | case2 => simp
  | case4 s c rest hskip token after hscan ih =>
      exact List.forall_mem_cons.mpr ⟨sound_of_scan hscan, ih⟩

end Tokens

section Machine

variable {dialect : Dialect} {state next : State} {holes : List Hole} {token : Token}
  {left : List Char}

/-- Holds of the places where all values made so far are sound. -/
def Place.Sound : Place → Prop
  | .value => True
  | .items _ _ done => ∀ item ∈ done, item.Sound Number.Fits
  | .members _ _ done | .colon _ _ done => done.toJson.Sound Number.Fits
  | .finished whole => whole.Sound Number.Fits

/-- Holds of the holes with only sound values around them. -/
def Hole.Sound : Hole → Prop
  | .item _ done => ∀ item ∈ done, item.Sound Number.Fits
  | .member _ _ done => done.toJson.Sound Number.Fits

/-- Holds of the states in which all values made so far are sound. -/
structure State.Sound (state : State) : Prop where
  place : state.place.Sound
  holes : ∀ hole ∈ state.holes, hole.Sound

theorem sound_insert {object : Object} {name : String} {value : Json}
    (hobject : object.toJson.Sound Number.Fits) (hvalue : value.Sound Number.Fits) :
    (object.insert name value).toJson.Sound Number.Fits := by
  refine sound_toJson.mpr fun member hmember => ?_
  rcases Members.mem_of_mem_insert hmember with rfl | hold
  · exact hvalue
  · exact sound_toJson.mp hobject member hold

theorem sound_fill {value : Json} (hvalue : value.Sound Number.Fits)
    (hholes : ∀ hole ∈ holes, hole.Sound) : (fill value holes).Sound := by
  cases holes with
  | nil => exact ⟨hvalue, hholes⟩
  | cons hole holes =>
      obtain ⟨hhole, hrest⟩ := List.forall_mem_cons.mp hholes
      cases hole with
      | item start done => exact ⟨List.forall_mem_cons.mpr ⟨hvalue, hhole⟩, hrest⟩
      | member start name done => exact ⟨sound_insert hhole hvalue, hrest⟩

theorem sound_openContainer {place : Place} (hplace : place.Sound)
    (hholes : ∀ hole ∈ holes, hole.Sound)
    (h : dialect.openContainer place holes = .ok next) : next.Sound := by
  unfold Dialect.openContainer at h
  split at h
  · split at h
    · cases h
    · cases h
      exact ⟨hplace, hholes⟩
  · cases h
    exact ⟨hplace, hholes⟩

theorem sound_startValue (htoken : token.Sound) (hholes : ∀ hole ∈ holes, hole.Sound)
    (h : dialect.startValue holes token left = .ok next) : next.Sound := by
  cases token with
  | string s => cases h; exact sound_fill (sound_string s) hholes
  | number text value => cases h; exact sound_fill htoken hholes
  | bool b => cases h; exact sound_fill (sound_bool b) hholes
  | null => cases h; exact sound_fill sound_null hholes
  | openBracket => exact sound_openContainer (by simp [Place.Sound]) hholes h
  | openBrace =>
      have hempty : (Place.members left .opened .empty).Sound :=
        sound_toJson.mpr fun _ hmember => absurd hmember List.not_mem_nil
      exact sound_openContainer hempty hholes h
  | _ => cases h

theorem sound_inArray {start : List Char} {stage : Stage} {done : List Json}
    (hdone : ∀ item ∈ done, item.Sound Number.Fits) (hholes : ∀ hole ∈ holes, hole.Sound)
    (htoken : token.Sound) (h : dialect.inArray start stage done holes token left = .ok next) :
    next.Sound := by
  have harray : (fill (.array done.reverse) holes).Sound :=
    sound_fill (sound_array.mpr fun item hitem => hdone item (List.mem_reverse.mp hitem)) hholes
  have hinside : ∀ hole ∈ Hole.item start done :: holes, hole.Sound :=
    List.forall_mem_cons.mpr ⟨hdone, hholes⟩
  unfold Dialect.inArray at h
  split at h
  · cases h
    exact ⟨hdone, hholes⟩
  · split at h
    · cases h
      exact harray
    · cases h
  · cases h
    exact harray
  · split at h
    · exact sound_startValue htoken hinside h
    · cases h
  · exact sound_startValue htoken hinside h

theorem sound_inObject {start : List Char} {stage : Stage} {done : Object}
    (hdone : done.toJson.Sound Number.Fits) (hholes : ∀ hole ∈ holes, hole.Sound)
    (h : dialect.inObject start stage done holes token = .ok next) : next.Sound := by
  have hobject : (fill done.toJson holes).Sound := sound_fill hdone hholes
  unfold Dialect.inObject at h
  dsimp only at h
  split at h
  · cases h
    exact ⟨hdone, hholes⟩
  · split at h
    · cases h
      exact hobject
    · cases h
  · cases h
    exact hobject
  · split at h
    · split at h
      · cases h
        exact ⟨hdone, hholes⟩
      · cases h
    · cases h
  · split at h
    · cases h
      exact ⟨hdone, hholes⟩
    · cases h

/-- No step leaves the sound states. -/
theorem sound_step (hstate : state.Sound) (htoken : token.Sound)
    (h : dialect.step state token left = .ok next) : next.Sound := by
  obtain ⟨place, holes⟩ := state
  obtain ⟨hplace, hholes⟩ := hstate
  cases place with
  | value => exact sound_startValue htoken hholes h
  | items start stage done => exact sound_inArray hplace hholes htoken h
  | members start stage done => exact sound_inObject hplace hholes h
  | colon start name done =>
      cases token with
      | colon => cases h; exact ⟨trivial, List.forall_mem_cons.mpr ⟨hplace, hholes⟩⟩
      | _ => cases h
  | finished value => cases h

theorem sound_run {lexemes : List Lexeme} (hstate : state.Sound)
    (hlexemes : ∀ lexeme ∈ lexemes, lexeme.Sound) (h : dialect.run state lexemes = .ok next) :
    next.Sound := by
  fun_induction Dialect.run dialect state lexemes with
  | case1 => cases h; exact hstate
  | case2 => cases h
  | case3 state token left rest stepped hstep ih =>
      obtain ⟨htoken, hrest⟩ := List.forall_mem_cons.mp hlexemes
      exact ih (sound_step hstate htoken hstep) hrest h
  | case4 => cases h

theorem sound_assemble {lexemes : List Lexeme} {value : Json}
    (hlexemes : ∀ lexeme ∈ lexemes, lexeme.Sound)
    (h : dialect.assemble lexemes = .ok (some value)) : value.Sound Number.Fits := by
  unfold Dialect.assemble at h
  split at h
  · next final hrun =>
      have hinitial : State.initial.Sound := ⟨trivial, by simp [State.initial]⟩
      obtain ⟨place, holes⟩ := final
      have hplace := (sound_run hinitial hlexemes hrun).place
      cases place with
      | finished whole => cases h; exact hplace
      | value =>
          unfold State.finish at h
          dsimp only at h
          split at h <;> cases h
      | _ => cases h
  · cases h

end Machine

theorem sound_of_read {text : String} {value : Json} (h : Tolerant.read text = .ok (some value)) :
    value.Sound Number.Fits := by
  unfold Tolerant.read at h
  split at h
  · next hassembled =>
      cases h
      exact sound_assemble (sound_lexemes _) hassembled
  · cases h

end ExtensionLint.Json
