import ExtensionLint.Proofs.Members
import ExtensionLint.Proofs.TokenScanning

/-!
Written values read back. The reader takes the text of a value, compact or indented, for that value,
provided that its numbers are integers of 64 bits and the members of its objects ascend. Both forms
are laid out alike and differ in their blanks only, so one induction over the value serves both: the
machine that has met the text of a value has filled the hole that waited for it.
-/

namespace ExtensionLint.Json

open Tolerant

section Lexemes

/-- The lexemes of a text are its first token and those after it. -/
theorem lexemes_eq (s : List Char) :
    lexemes s = match skip .blanks s with
      | .error failure => [.bad failure]
      | .ok [] => []
      | .ok (c :: rest) => match scan (c :: rest) with
        | .error failure => [.bad failure]
        | .ok (token, after) => .token token (c :: rest) :: lexemes after := by
  rw [lexemes]
  split
  · next hskip => rw [hskip]
  · next hskip => rw [hskip]
  · next hskip =>
      rw [hskip]
      dsimp only
      split
      · next hscan => rw [hscan]
      · next hscan => rw [hscan]

theorem lexemes_nil : lexemes [] = [] := by
  rw [lexemes_eq]
  rfl

/-- What is skipped where no comment starts. -/
theorem skip_of_ne_slash {c : Char} {s : List Char} (hslash : c ≠ '/') :
    skip .blanks (c :: s) =
      if Text.isBlank c = true then skip .blanks s else .ok (c :: s) := by
  rw [skip.eq_def]
  split
  · next heq => cases heq
  · next heq => exact absurd (List.cons.inj heq).1 hslash
  · next heq => exact absurd (List.cons.inj heq).1 hslash
  · next heq =>
      obtain ⟨rfl, rfl⟩ := List.cons.inj heq
      rfl
  all_goals next hskipping _ => cases hskipping

theorem ne_slash_of_isBlank {c : Char} (hblank : Text.isBlank c = true) : c ≠ '/' := by
  rintro rfl
  revert hblank
  decide

theorem lexemes_blanks {gap s : List Char} (hgap : ∀ c ∈ gap, Text.isBlank c = true) :
    lexemes (gap ++ s) = lexemes s := by
  induction gap with
  | nil => rfl
  | cons c gap ih =>
      have hrest := ih fun d hd => hgap d (List.mem_cons_of_mem _ hd)
      have hblank := hgap c (List.mem_cons_self ..)
      rw [List.cons_append, lexemes_eq, skip_of_ne_slash (ne_slash_of_isBlank hblank),
        if_pos hblank, ← lexemes_eq, hrest]

theorem lexemes_scan {c : Char} {s rest : List Char} {token : Token}
    (hblank : Text.isBlank c = false) (hslash : c ≠ '/')
    (hscan : scan (c :: s) = .ok (token, rest)) :
    lexemes (c :: s) = .token token (c :: s) :: lexemes rest := by
  have hskip : skip .blanks (c :: s) = .ok (c :: s) := by
    rw [skip_of_ne_slash hslash, hblank]
    rfl
  rw [lexemes_eq, hskip]
  dsimp only
  rw [hscan]

theorem lexemes_punctuation {c : Char} {s : List Char} {token : Token}
    (hpunctuation : punctuation? c = some token) :
    lexemes (c :: s) = .token token (c :: s) :: lexemes s := by
  have hscan : scan (c :: s) = .ok (token, s) := by
    rw [scan, hpunctuation]
  have hmark : c = '{' ∨ c = '}' ∨ c = '[' ∨ c = ']' ∨ c = ':' ∨ c = ',' := by
    by_contra hother
    simp only [not_or] at hother
    simp [punctuation?, hother] at hpunctuation
  rcases hmark with rfl | rfl | rfl | rfl | rfl | rfl <;>
    exact lexemes_scan (by decide) (by decide) hscan

end Lexemes

section Machine

variable {s rest gap : List Char} {value : Json} {start : List Char} {holes : List Hole}

theorem run_token {state : State} {token : Token} {left : List Char} {more : List Lexeme} :
    dialect.run state (.token token left :: more) = match dialect.step state token left with
      | .ok next => dialect.run next more
      | .error problem => .error ⟨problem, left⟩ :=
  rfl

/-- Says that a text starts with a value and goes on with a rest: the machine that waits for a value
has it when it comes to the rest. The first token does not close an array, so the value may also be
the first item of one. -/
structure Reads (s : List Char) (value : Json) (rest : List Char) : Prop where
  starts : ∃ token left more, lexemes s = .token token left :: more ∧ token ≠ .closeBracket
  runs : ∀ holes, dialect.run ⟨.value, holes⟩ (lexemes s) =
    dialect.run (fill value holes) (lexemes rest)

theorem Reads.blanks (hgap : ∀ c ∈ gap, Text.isBlank c = true) (h : Reads s value rest) :
    Reads (gap ++ s) value rest := by
  constructor
  · rw [lexemes_blanks hgap]
    exact h.starts
  · rw [lexemes_blanks hgap]
    exact h.runs

/-- A value of one token. -/
theorem reads_of_scan {c : Char} {token : Token} (hblank : Text.isBlank c = false)
    (hslash : c ≠ '/') (hscan : scan (c :: s) = .ok (token, rest))
    (hvalue : ∀ holes left, dialect.startValue holes token left = .ok (fill value holes)) :
    Reads (c :: s) value rest := by
  have hlexemes := lexemes_scan hblank hslash hscan
  constructor
  · refine ⟨token, c :: s, lexemes rest, hlexemes, ?_⟩
    rintro rfl
    cases hvalue [] []
  · intro holes
    have hstep : dialect.step ⟨.value, holes⟩ token (c :: s) = .ok (fill value holes) :=
      hvalue holes (c :: s)
    rw [hlexemes, run_token, hstep]

theorem reads_writeInt (hrest : Delimited rest) {i : Int} (hfits : (Number.integer i).Fits) :
    Reads (writeInt i ++ rest) (.number (.integer i)) rest := by
  obtain ⟨c, digits, hwritten, hfirst⟩ := exists_cons_writeInt i
  obtain ⟨text, hscan⟩ := scan_writeInt hrest hfits
  obtain ⟨hblank, hslash⟩ : Text.isBlank c = false ∧ c ≠ '/' := by
    rcases hfirst with rfl | hdigit
    · decide
    · exact ⟨Text.isBlank_of_isDigit hdigit, fun hslash => absurd (hslash ▸ hdigit) (by decide)⟩
  rw [hwritten, List.cons_append] at hscan ⊢
  exact reads_of_scan hblank hslash hscan fun _ _ => rfl

theorem reads_keyword (hrest : Delimited rest) {word : List Char} {token : Token}
    (hknown : (word, token) ∈ keywords)
    (hvalue : ∀ holes left, dialect.startValue holes token left = .ok (fill value holes)) :
    Reads (word ++ rest) value rest := by
  have hscan := scan_keyword hrest hknown
  obtain ⟨c, letters, rfl, hblank, hslash⟩ :
      ∃ c letters, word = c :: letters ∧ Text.isBlank c = false ∧ c ≠ '/' := by
    simp only [keywords, List.mem_cons, Prod.mk.injEq, List.not_mem_nil, or_false] at hknown
    rcases hknown with ⟨rfl, -⟩ | ⟨rfl, -⟩ | ⟨rfl, -⟩ <;>
      exact ⟨_, _, rfl, by decide, by decide⟩
  exact reads_of_scan hblank hslash hscan hvalue

/-- An array has been read when its items and its end have. -/
theorem reads_openBracket {items : List Json}
    (h : ∀ holes, dialect.run ⟨.items ('[' :: s) .opened [], holes⟩ (lexemes s) =
      dialect.run (fill (.array items) holes) (lexemes rest)) :
    Reads ('[' :: s) (.array items) rest := by
  have hlexemes : lexemes ('[' :: s) = .token .openBracket ('[' :: s) :: lexemes s :=
    lexemes_punctuation rfl
  refine ⟨⟨_, _, _, hlexemes, by simp⟩, fun holes => ?_⟩
  rw [hlexemes]
  exact h holes

/-- An object has been read when its members and its end have. -/
theorem reads_openBrace {members : Members}
    (h : ∀ holes, dialect.run ⟨.members ('{' :: s) .opened .empty, holes⟩ (lexemes s) =
      dialect.run (fill (.object members) holes) (lexemes rest)) :
    Reads ('{' :: s) (.object members) rest := by
  have hlexemes : lexemes ('{' :: s) = .token .openBrace ('{' :: s) :: lexemes s :=
    lexemes_punctuation rfl
  refine ⟨⟨_, _, _, hlexemes, by simp⟩, fun holes => ?_⟩
  rw [hlexemes]
  exact h holes

/-- Where an item may stand, any token but the end of the array starts one. -/
theorem inArray_eq_startValue {stage : Stage} {done : List Json} {token : Token} {left : List Char}
    (hstage : stage ≠ .filled) (htoken : token ≠ .closeBracket) :
    dialect.inArray start stage done holes token left =
      dialect.startValue (.item start done :: holes) token left := by
  unfold Dialect.inArray
  split
  · exact absurd rfl hstage
  · exact absurd rfl htoken
  · exact absurd rfl htoken
  · exact absurd rfl hstage
  · rfl

/-- A value where an item of an array may stand. -/
theorem Reads.item {stage : Stage} {done : List Json} (h : Reads s value rest)
    (hstage : stage ≠ .filled) :
    dialect.run ⟨.items start stage done, holes⟩ (lexemes s) =
      dialect.run ⟨.items start .filled (value :: done), holes⟩ (lexemes rest) := by
  obtain ⟨token, left, more, hlexemes, htoken⟩ := h.starts
  have hstep : dialect.step ⟨.items start stage done, holes⟩ token left =
      dialect.step ⟨.value, .item start done :: holes⟩ token left :=
    inArray_eq_startValue hstage htoken
  have hruns := h.runs (.item start done :: holes)
  rw [hlexemes, run_token] at hruns ⊢
  rw [hstep]
  exact hruns

/-- A member of an object, up to its value. -/
theorem Reads.member {name : String} {stage : Stage} {done : Object} {colon : List Char}
    (hcolon : ∀ c ∈ colon, Text.isBlank c = true) (h : Reads s value rest) :
    dialect.run ⟨.members start stage done, holes⟩
        (lexemes (writeString name ++ ':' :: (colon ++ s))) =
      dialect.run ⟨.members start .filled (done.insert name value), holes⟩ (lexemes rest) := by
  have hname := scan_writeString name (':' :: (colon ++ s))
  rw [writeString, List.cons_append, List.cons_append] at hname ⊢
  rw [lexemes_scan (by decide) (by decide) hname, run_token]
  have hstep : ∀ left, dialect.step ⟨.members start stage done, holes⟩ (.string name) left =
      .ok ⟨.colon start name done, holes⟩ := by
    intro left
    cases stage <;> rfl
  rw [hstep]
  dsimp only
  rw [lexemes_punctuation (rfl : punctuation? ':' = some .colon), run_token]
  exact (h.blanks hcolon).runs (.member start name done :: holes)

end Machine

section Layout

/-- The blanks that stand between the tokens of an array or an object. -/
structure Layout where
  /-- What stands before each item or member. -/
  before : List Char
  /-- What stands between the colon of a member and its value. -/
  colon : List Char
  /-- What stands before the end. -/
  close : List Char

variable (layout : Layout) (write : Json → List Char)

def Layout.items (items : List Json) : List Char :=
  items.flatMap fun item => ',' :: layout.before ++ write item

def Layout.array : List Json → List Char
  | [] => ['[', ']']
  | item :: items =>
      '[' :: layout.before ++ write item ++ layout.items write items ++ layout.close ++ [']']

def Layout.member (member : String × Json) : List Char :=
  writeString member.1 ++ ':' :: layout.colon ++ write member.2

def Layout.members (members : Members) : List Char :=
  members.flatMap fun member => ',' :: layout.before ++ layout.member write member

def Layout.object : Members → List Char
  | [] => ['{', '}']
  | member :: members =>
      '{' :: layout.before ++ layout.member write member ++ layout.members write members ++
        layout.close ++ ['}']

/-- Holds where only blanks are put between tokens, and the end comes at once or on a new line. -/
structure Layout.Blank : Prop where
  before : ∀ c ∈ layout.before, Text.isBlank c = true
  colon : ∀ c ∈ layout.colon, Text.isBlank c = true
  close : ∀ c ∈ layout.close, Text.isBlank c = true
  newLine : ∀ c ∈ layout.close.head?, c = '\n'

variable {layout}

theorem delimited_close (hblank : layout.Blank) {c : Char} (hend : c = ']' ∨ c = '}')
    (rest : List Char) : Delimited (layout.close ++ c :: rest) := by
  have hline := hblank.newLine
  cases hclose : layout.close with
  | nil => exact delimited_cons (.inr (hend.imp_right .inl))
  | cons first close =>
      rw [hclose] at hline
      exact delimited_cons (.inr (.inr (.inr (hline first rfl))))

theorem delimited_items (hblank : layout.Blank) (items : List Json) (rest : List Char) :
    Delimited (layout.items write items ++ (layout.close ++ ']' :: rest)) := by
  cases items with
  | nil => exact delimited_close hblank (.inl rfl) rest
  | cons item items => exact delimited_cons (.inl rfl)

theorem delimited_members (hblank : layout.Blank) (members : Members) (rest : List Char) :
    Delimited (layout.members write members ++ (layout.close ++ '}' :: rest)) := by
  cases members with
  | nil => exact delimited_close hblank (.inr rfl) rest
  | cons member members => exact delimited_cons (.inl rfl)

section Items

variable {write} {start rest : List Char} {holes : List Hole} (hblank : layout.Blank)
include hblank

/-- The items after the first, and the end of the array. -/
theorem run_items {items : List Json} (done : List Json)
    (hitems : ∀ item ∈ items, ∀ rest, Delimited rest → Reads (write item ++ rest) item rest) :
    dialect.run ⟨.items start .filled done, holes⟩
        (lexemes (layout.items write items ++ (layout.close ++ ']' :: rest))) =
      dialect.run (fill (.array (done.reverse ++ items)) holes) (lexemes rest) := by
  induction items generalizing done with
  | nil =>
      rw [Layout.items, List.flatMap_nil, List.nil_append, lexemes_blanks hblank.close,
        lexemes_punctuation (rfl : punctuation? ']' = some .closeBracket), List.append_nil]
      rfl
  | cons item items ih =>
      have hitem := (hitems item (List.mem_cons_self ..) _
        (delimited_items write hblank items rest)).blanks hblank.before
      have hrest := ih (item :: done) fun other hother =>
        hitems other (List.mem_cons_of_mem _ hother)
      have htext : layout.items write (item :: items) ++ (layout.close ++ ']' :: rest) =
          ',' :: (layout.before ++ (write item ++
            (layout.items write items ++ (layout.close ++ ']' :: rest)))) := by
        simp [Layout.items]
      rw [htext, lexemes_punctuation (rfl : punctuation? ',' = some .comma), run_token]
      show dialect.run ⟨.items start .separated done, holes⟩ _ = _
      rw [hitem.item (by decide), hrest, List.reverse_cons, List.append_assoc,
        List.singleton_append]

/-- The members after the first, which are set one after the other, and the end of the object. -/
theorem run_members {members : Members} (done : Object)
    (hmembers : ∀ member ∈ members, ∀ rest, Delimited rest →
      Reads (write member.2 ++ rest) member.2 rest) :
    dialect.run ⟨.members start .filled done, holes⟩
        (lexemes (layout.members write members ++ (layout.close ++ '}' :: rest))) =
      dialect.run (fill (done.insertAll members).toJson holes) (lexemes rest) := by
  induction members generalizing done with
  | nil =>
      rw [Layout.members, List.flatMap_nil, List.nil_append, lexemes_blanks hblank.close,
        lexemes_punctuation (rfl : punctuation? '}' = some .closeBrace)]
      rfl
  | cons member members ih =>
      have hvalue := hmembers member (List.mem_cons_self ..) _
        (delimited_members write hblank members rest)
      have hrest := ih (done.insert member.1 member.2) fun other hother =>
        hmembers other (List.mem_cons_of_mem _ hother)
      have htext : layout.members write (member :: members) ++ (layout.close ++ '}' :: rest) =
          ',' :: (layout.before ++ (writeString member.1 ++ ':' :: (layout.colon ++
            (write member.2 ++
              (layout.members write members ++ (layout.close ++ '}' :: rest)))))) := by
        simp [Layout.members, Layout.member]
      rw [htext, lexemes_punctuation (rfl : punctuation? ',' = some .comma), run_token]
      show dialect.run ⟨.members start .separated done, holes⟩ _ = _
      rw [lexemes_blanks hblank.before, hvalue.member hblank.colon, hrest, Object.insertAll_cons]

theorem reads_array {items : List Json}
    (hitems : ∀ item ∈ items, ∀ rest, Delimited rest → Reads (write item ++ rest) item rest) :
    Reads (layout.array write items ++ rest) (.array items) rest := by
  cases items with
  | nil =>
      show Reads ('[' :: ']' :: rest) _ _
      refine reads_openBracket fun holes => ?_
      rw [lexemes_punctuation (rfl : punctuation? ']' = some .closeBracket)]
      rfl
  | cons item items =>
      have hitem := (hitems item (List.mem_cons_self ..) _
        (delimited_items write hblank items rest)).blanks hblank.before
      have htext : layout.array write (item :: items) ++ rest = '[' :: (layout.before ++
          (write item ++ (layout.items write items ++ (layout.close ++ ']' :: rest)))) := by
        simp [Layout.array]
      rw [htext]
      refine reads_openBracket fun holes => ?_
      rw [hitem.item (by decide), run_items hblank [item] fun other hother =>
        hitems other (List.mem_cons_of_mem _ hother)]
      rfl

/-- The text of members is read as the object of these members if the texts of their values are read
as these. -/
theorem reads_ofList {members : Members}
    (hmembers : ∀ member ∈ members, ∀ rest, Delimited rest →
      Reads (write member.2 ++ rest) member.2 rest) :
    Reads (layout.object write members ++ rest) (ofMembers members) rest := by
  cases members with
  | nil =>
      show Reads ('{' :: '}' :: rest) _ _
      refine reads_openBrace fun holes => ?_
      rw [lexemes_punctuation (rfl : punctuation? '}' = some .closeBrace)]
      rfl
  | cons member members =>
      have hvalue := hmembers member (List.mem_cons_self ..) _
        (delimited_members write hblank members rest)
      have htext : layout.object write (member :: members) ++ rest = '{' :: (layout.before ++
          (writeString member.1 ++ ':' :: (layout.colon ++ (write member.2 ++
            (layout.members write members ++ (layout.close ++ '}' :: rest)))))) := by
        simp [Layout.object, Layout.member]
      rw [htext]
      refine reads_openBrace fun holes => ?_
      rw [lexemes_blanks hblank.before, hvalue.member hblank.colon]
      exact run_members hblank (Object.empty.insert member.1 member.2) fun other hother =>
        hmembers other (List.mem_cons_of_mem _ hother)

end Items

end Layout

section Printers

/-- Holds of printers that write tokens as in the compact form and lay arrays and objects out, where
the layout may depend on the depth. -/
structure LaysOut (layout : Nat → Layout) (write : Nat → Json → List Char) : Prop where
  blank : ∀ depth, (layout depth).Blank
  null : ∀ depth, write depth .null = Json.write .null
  bool : ∀ depth b, write depth (.bool b) = Json.write (.bool b)
  number : ∀ depth n, write depth (.number n) = Json.write (.number n)
  string : ∀ depth s, write depth (.string s) = Json.write (.string s)
  array : ∀ depth items,
    write depth (.array items) = (layout depth).array (write (depth + 1)) items
  object : ∀ depth members,
    write depth (.object members) = (layout depth).object (write (depth + 1)) members

variable {layout : Nat → Layout} {write : Nat → Json → List Char} {value : Json}

/-- What such a printer writes for a value is read as the value. -/
theorem LaysOut.reads (h : LaysOut layout write) (hsound : value.Sound Number.FitsExactly) :
    ∀ depth rest, Delimited rest → Reads (write depth value ++ rest) value rest := by
  induction value using inductionOn with
  | null =>
      intro depth rest hrest
      rw [h.null, Json.write]
      have hknown : ("null".toList, Token.null) ∈ keywords := by simp [keywords]
      exact reads_keyword hrest hknown fun _ _ => rfl
  | bool b =>
      intro depth rest hrest
      rw [h.bool]
      cases b with
      | true =>
          rw [Json.write]
          have hknown : ("true".toList, Token.bool true) ∈ keywords := by simp [keywords]
          exact reads_keyword hrest hknown fun _ _ => rfl
      | false =>
          rw [Json.write]
          have hknown : ("false".toList, Token.bool false) ∈ keywords := by simp [keywords]
          exact reads_keyword hrest hknown fun _ _ => rfl
  | number n =>
      intro depth rest hrest
      rw [h.number, Json.write]
      cases n with
      | float x => exact absurd (sound_number.mp hsound) id
      | integer i =>
          have hfits : (Number.integer i).FitsExactly := sound_number.mp hsound
          exact reads_writeInt hrest hfits
  | string s =>
      intro depth rest hrest
      rw [h.string, Json.write]
      exact reads_of_scan (by decide) (by decide) (scan_writeString s rest) fun _ _ => rfl
  | array items ih =>
      intro depth rest hrest
      rw [h.array]
      exact reads_array (h.blank depth) fun item hitem =>
        ih item hitem (sound_array.mp hsound item hitem) (depth + 1)
  | object members ih =>
      intro depth rest hrest
      rw [h.object]
      obtain ⟨hascending, hmembers⟩ := sound_object.mp hsound
      have hmade : ofMembers members = .object members :=
        congrArg Object.toJson (Object.ofList_members ⟨members, hascending⟩)
      rw [← hmade]
      exact reads_ofList (h.blank depth) fun member hmember =>
        ih member hmember (hmembers member hmember) (depth + 1)

theorem LaysOut.read (h : LaysOut layout write) (hsound : value.Sound Number.FitsExactly) :
    Tolerant.read (String.ofList (write 0 value)) = .ok (some value) := by
  have hreads := (h.reads hsound 0 [] delimited_nil).runs []
  rw [List.append_nil, lexemes_nil] at hreads
  have hassembled : dialect.assemble (lexemes (write 0 value)) = .ok (some value) := by
    rw [Dialect.assemble, State.initial, hreads]
    rfl
  rw [Tolerant.read, String.toList_ofList, hassembled]

def compactLayout : Layout := ⟨[], [], []⟩

/-- Items and members on lines of their own, one level deeper than their container. -/
def indentedLayout (depth : Nat) : Layout := ⟨newLine (depth + 1), [' '], newLine depth⟩

theorem writeMoreItems_eq (items : List Json) :
    writeMoreItems items = compactLayout.items Json.write items := by
  induction items with
  | nil => rfl
  | cons item items ih => rw [writeMoreItems, ih]; rfl

theorem writeMoreMembers_eq (members : Members) :
    writeMoreMembers members = compactLayout.members Json.write members := by
  induction members with
  | nil => rfl
  | cons member members ih =>
      obtain ⟨name, value⟩ := member
      rw [writeMoreMembers, ih]
      simp [compactLayout, Layout.members, Layout.member]

theorem laysOut_write : LaysOut (fun _ => compactLayout) (fun _ => Json.write) where
  blank _ := by constructor <;> simp [compactLayout]
  null _ := rfl
  bool _ _ := rfl
  number _ _ := rfl
  string _ _ := rfl
  array _ items := by
    cases items with
    | nil => simp [Json.write, writeItems, Layout.array]
    | cons item items =>
        simp [Json.write, writeItems, Layout.array, writeMoreItems_eq, compactLayout]
  object _ members := by
    cases members with
    | nil => simp [Json.write, writeMembers, Layout.object]
    | cons member members =>
        simp [Json.write, writeMembers, Layout.object, Layout.member, writeMoreMembers_eq,
          compactLayout]

theorem writeIndentedItems_eq (depth : Nat) (items : List Json) :
    writeIndentedItems (depth + 1) items =
      (indentedLayout depth).items (writeIndented (depth + 1)) items := by
  induction items with
  | nil => rw [writeIndentedItems]; rfl
  | cons item items ih => rw [writeIndentedItems, ih]; rfl

theorem writeIndentedMembers_eq (depth : Nat) (members : Members) :
    writeIndentedMembers (depth + 1) members =
      (indentedLayout depth).members (writeIndented (depth + 1)) members := by
  induction members with
  | nil => rw [writeIndentedMembers]; rfl
  | cons member members ih =>
      obtain ⟨name, value⟩ := member
      rw [writeIndentedMembers, ih]
      simp [indentedLayout, Layout.members, Layout.member]

theorem isBlank_of_mem_newLine {depth : Nat} {c : Char} (h : c ∈ newLine depth) :
    Text.isBlank c = true := by
  rcases List.mem_cons.mp h with rfl | hspace
  · decide
  · obtain rfl := List.eq_of_mem_replicate hspace
    decide

theorem laysOut_writeIndented : LaysOut indentedLayout writeIndented where
  blank _ :=
    { before := fun _ => isBlank_of_mem_newLine
      colon := by simp [indentedLayout, Text.isBlank]
      close := fun _ => isBlank_of_mem_newLine
      newLine := by simp [indentedLayout, newLine] }
  null _ := by rw [writeIndented, Json.write]
  bool _ b := by cases b <;> rw [writeIndented, Json.write]
  number _ _ := by rw [writeIndented, Json.write]
  string _ _ := by rw [writeIndented, Json.write]
  array depth items := by
    cases items with
    | nil => rw [writeIndented, Layout.array]
    | cons item items => rw [writeIndented, writeIndentedItems_eq]; rfl
  object depth members := by
    cases members with
    | nil => rw [writeIndented, Layout.object]
    | cons member members =>
        rw [writeIndented, writeIndentedMembers_eq]
        simp [Layout.object, Layout.member, indentedLayout]

theorem read_text (hsound : value.Sound Number.FitsExactly) :
    Tolerant.read value.text = .ok (some value) :=
  laysOut_write.read hsound

theorem read_indentedText (hsound : value.Sound Number.FitsExactly) :
    Tolerant.read value.indentedText = .ok (some value) :=
  laysOut_writeIndented.read hsound

end Printers

end ExtensionLint.Json
