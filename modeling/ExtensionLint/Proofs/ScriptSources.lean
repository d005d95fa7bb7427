import ExtensionLint.Proofs.Splitting
import ExtensionLint.SecurityPolicy
import Mathlib.Tactic.SplitIfs

/-!
What the analysis of a content security policy comes to. It walks through five directives with a flag
that a safe `script-src` takes back; the main statement says without the walk which policies are
insecure and which allow the evaluation of strings. The tokens of a directive are those of its first
occurrence in the text, letter case aside.
-/

namespace ExtensionLint

namespace SecurityPolicy

/-- Whether a token lets in scripts from elsewhere. -/
def isBroad (token : String) : Bool := !isEval token && !isSafe token

namespace Directives

variable (directives : Directives)

def declares (name : String) : Bool := (directives.get? name).isSome

/-- Whether a directive is declared with a broad token. -/
def broad (name : String) : Bool := (directives.get? name).any fun tokens => tokens.any isBroad

/-- Whether a directive is declared with the token that allows evaluation. -/
def evaluates (name : String) : Bool := (directives.get? name).any fun tokens => tokens.any isEval

/-- Whether the default for scripts lets in anything from elsewhere. -/
def openDefault : Bool := !directives.declares "default-src" || directives.broad "default-src"

end Directives

theorem not_isSafe_of_isEval {token : String} (h : isEval token = true) : isSafe token = false := by
  have hlower : Text.lower token.toList = "'unsafe-eval'".toList := by
    rw [isEval, Text.sameLetters, beq_iff_eq] at h
    rw [h]
    decide
  rw [isSafe, hlower]
  decide

theorem all_isSafe (tokens : List String) :
    tokens.all isSafe = (!tokens.any isBroad && !tokens.any isEval) := by
  have htoken : ∀ token, isSafe token = (!isBroad token && !isEval token) := by
    intro token
    rw [isBroad]
    cases heval : isEval token with
    | true => simp [not_isSafe_of_isEval heval]
    | false => simp
  induction tokens with
  | nil => rfl
  | cons token tokens ih =>
      rw [List.all_cons, List.any_cons, List.any_cons, ih, htoken]
      cases isBroad token <;> cases isEval token <;> simp

section Walk

variable (directives : Directives) (found : Analysis)

theorem examine_of_get? {name : String} {tokens : List String}
    (h : directives.get? name = some tokens) :
    examine directives found name =
      if found.insecure && name = "script-src" && tokens.all isSafe then
        ⟨false, found.unsafeEval⟩
      else ⟨found.insecure || tokens.any isBroad, found.unsafeEval || tokens.any isEval⟩ := by
  simp only [examine, h]
  rfl

/-- Examining a directive adds its evaluation, also where the rest of it is skipped. -/
theorem examine_unsafeEval (name : String) :
    (examine directives found name).unsafeEval =
      (found.unsafeEval || directives.evaluates name) := by
  cases hget : directives.get? name with
  | none => simp [examine, Directives.evaluates, hget]
  | some tokens =>
      rw [examine_of_get? directives found hget, Directives.evaluates, hget, Option.any_some]
      split_ifs with hskip
      · rw [all_isSafe] at hskip
        simp_all
      · rfl

theorem examine_insecure {name : String} (hname : name ≠ "script-src") :
    (examine directives found name).insecure = (found.insecure || directives.broad name) := by
  cases hget : directives.get? name with
  | none => simp [examine, Directives.broad, hget]
  | some tokens =>
      rw [examine_of_get? directives found hget, Directives.broad, hget, Option.any_some]
      simp [hname]

/-- The directive for scripts takes back what was found before unless it allows evaluation. -/
theorem examine_script_insecure :
    (examine directives found "script-src").insecure =
      if directives.declares "script-src" then
        directives.broad "script-src" || found.insecure && directives.evaluates "script-src"
      else found.insecure := by
  unfold Directives.broad Directives.evaluates Directives.declares
  cases hget : directives.get? "script-src" with
  | none => simp [examine, hget]
  | some tokens =>
      rw [examine_of_get? directives found hget, all_isSafe, Option.any_some, Option.any_some]
      cases found.insecure <;> cases tokens.any isBroad <;> cases tokens.any isEval <;> rfl

theorem foldl_examine_unsafeEval (names : List String) :
    (names.foldl (examine directives) found).unsafeEval =
      (found.unsafeEval || names.any directives.evaluates) := by
  induction names generalizing found with
  | nil => simp
  | cons name names ih =>
      rw [List.foldl_cons, ih, examine_unsafeEval, List.any_cons, Bool.or_assoc]

/-- Away from the directive for scripts the flag is only ever set. -/
theorem foldl_examine_insecure {names : List String} (hnames : "script-src" ∉ names) :
    (names.foldl (examine directives) found).insecure =
      (found.insecure || names.any directives.broad) := by
  induction names generalizing found with
  | nil => simp
  | cons name names ih =>
      rw [List.mem_cons, not_or] at hnames
      rw [List.foldl_cons, ih _ hnames.2, examine_insecure _ _ (Ne.symm hnames.1), List.any_cons,
        Bool.or_assoc]

end Walk

/-- The directives that are examined after the one for scripts. -/
def laterDirectives : List String := ["script-src-elem", "script-src-attr", "worker-src"]

theorem analyze_unsafeEval (policy : String) :
    (analyze policy).unsafeEval = scriptDirectives.any (parse policy).evaluates := by
  rw [analyze, foldl_examine_unsafeEval, Bool.false_or]

theorem analyze_insecure (policy : String) :
    (analyze policy).insecure =
      ((if (parse policy).declares "script-src" then
          (parse policy).broad "script-src" ||
            (parse policy).openDefault && (parse policy).evaluates "script-src"
        else (parse policy).openDefault) || laterDirectives.any (parse policy).broad) := by
  have hstart : ∀ directives : Directives,
      (examine directives ⟨(directives.get? "default-src").isNone, false⟩ "default-src").insecure =
        directives.openDefault := by
    intro directives
    rw [examine_insecure _ _ (by decide), Directives.openDefault, Directives.declares,
      Option.not_isSome]
  have hsplit : scriptDirectives = "default-src" :: "script-src" :: laterDirectives := rfl
  rw [analyze, hsplit, List.foldl_cons, List.foldl_cons, foldl_examine_insecure _ _ (by decide),
    examine_script_insecure, hstart]

/-- The words of the parts of a policy between semicolons. -/
def parts (policy : String) : List (List (List Char)) :=
  (Text.splitBy (· == ';') policy.toList).map (Text.fields Text.isBlank)

/-- Holds of a policy and the words of its parts, which stand between its semicolons. -/
def HasParts (policy : String) (words : List (List (List Char))) : Prop :=
  ∃ segments, [';'].intercalate segments = policy.toList ∧ segments ≠ [] ∧
    (∀ segment ∈ segments, ';' ∉ segment) ∧
    List.Forall₂ (Text.HasWords Text.isBlank) segments words

theorem hasParts_iff {policy : String} {words : List (List (List Char))} :
    HasParts policy words ↔ parts policy = words := by
  have hsegments : ∀ segments, [';'].intercalate segments = policy.toList ∧ segments ≠ [] ∧
      (∀ segment ∈ segments, ';' ∉ segment) ↔
        Text.splitBy (· == ';') policy.toList = segments := by
    intro segments
    rw [Text.splitBy_eq_iff ';' rfl fun c hc => eq_of_beq hc]
  have hwords : ∀ segment words, Text.HasWords Text.isBlank segment words ↔
      Text.fields Text.isBlank segment = words := fun segment words => Text.fields_eq_iff.symm
  constructor
  · rintro ⟨segments, hjoin, hne, hsemicolons, hparts⟩
    rw [parts, (hsegments segments).mp ⟨hjoin, hne, hsemicolons⟩]
    exact (forall₂_iff_map_eq hwords).mp hparts
  · rintro rfl
    obtain ⟨hjoin, hne, hsemicolons⟩ := (hsegments _).mpr rfl
    exact ⟨_, hjoin, hne, hsemicolons, (forall₂_iff_map_eq hwords).mpr rfl⟩

/-- Holds of tokens that only let in scripts of the package or single known ones, letter case
aside. -/
def SafeToken (token : String) : Prop :=
  let word := token.toList.map Char.toLower
  word ∈ ["'self'", "'none'", "'strict-dynamic'", "'wasm-unsafe-eval'"].map String.toList ∨
    ∃ opening ∈ ["'nonce-", "'sha256-", "'sha384-", "'sha512-"],
      opening.toList <+: word ∧ "'".toList <:+ word

theorem isSafe_iff {token : String} : isSafe token = true ↔ SafeToken token := by
  simp only [isSafe, SafeToken, Text.lower, Text.startsWith, Text.endsWith, Bool.or_eq_true,
    List.any_eq_true, Bool.and_eq_true, beq_iff_eq, List.isPrefixOf_iff_prefix,
    List.reverse_prefix, List.mem_map]
  rfl

/-- Holds of the token that allows the evaluation of strings, letter case aside. -/
def EvalToken (token : String) : Prop :=
  token.toList.map Char.toLower = "'unsafe-eval'".toList

theorem isEval_iff {token : String} : isEval token = true ↔ EvalToken token := by
  have hlower : Text.lower "'unsafe-eval'".toList = "'unsafe-eval'".toList := by decide
  rw [isEval, Text.sameLetters, hlower, beq_iff_eq, Text.lower, EvalToken]

/-- Whether words declare a directive: the first one is its name, letter case aside. -/
def declaresName (name : String) : List (List Char) → Bool
  | [] => false
  | word :: _ => Text.sameLetters word name.toList

/-- Holds of the tokens of the first directive of a name. -/
def Declared (policy name : String) (tokens : List String) : Prop :=
  ∃ before word rest after, HasParts policy (before ++ (word :: rest) :: after) ∧
    Text.sameLetters word name.toList = true ∧ (∀ part ∈ before, declaresName name part = false) ∧
    tokens = rest.map String.ofList

/-- A directive is missing when no part of the policy declares it. -/
def Missing (policy name : String) : Prop := ∀ tokens, ¬Declared policy name tokens

/-- A directive is bad when it is declared with a token that is neither safe nor the one that allows
evaluation. -/
def Bad (policy name : String) : Prop :=
  ∃ tokens, Declared policy name tokens ∧ ∃ token ∈ tokens, ¬SafeToken token ∧ ¬EvalToken token

/-- Holds of directives with the token that allows evaluation. -/
def Evaluates (policy name : String) : Prop :=
  ∃ tokens, Declared policy name tokens ∧ ∃ token ∈ tokens, EvalToken token

theorem sameLetters_eq {name : String} (hname : Text.lower name.toList = name.toList)
    (word : List Char) :
    Text.sameLetters word name.toList = (name == String.ofList (Text.lower word)) := by
  rw [Text.sameLetters, hname, Bool.eq_iff_iff, beq_iff_eq, beq_iff_eq]
  constructor
  · intro h
    rw [h, String.ofList_toList]
  · intro h
    rw [h, String.toList_ofList]

/-- Looking up a name finds the first part that declares it. -/
theorem lookup_filterMap_directive? {name : String}
    (hname : Text.lower name.toList = name.toList) (segments : List (List Char)) :
    (segments.filterMap directive?).lookup name =
      ((segments.map (Text.fields Text.isBlank)).find? (declaresName name)).map fun part =>
        part.tail.map String.ofList := by
  induction segments with
  | nil => rfl
  | cons segment segments ih =>
      rw [List.filterMap_cons, List.map_cons, List.find?_cons, directive?]
      cases Text.fields Text.isBlank segment with
      | nil => simpa [declaresName] using ih
      | cons word rest =>
          simp only [List.lookup_cons, declaresName, sameLetters_eq hname]
          cases name == String.ofList (Text.lower word) with
          | true => rfl
          | false => exact ih

theorem get?_parse_eq_some_iff {name : String} (hname : Text.lower name.toList = name.toList)
    {policy : String} {tokens : List String} :
    (parse policy).get? name = some tokens ↔ Declared policy name tokens := by
  rw [Directives.get?, parse, lookup_filterMap_directive? hname, Option.map_eq_some_iff]
  simp only [List.find?_eq_some_iff_append, Bool.not_eq_true']
  constructor
  · rintro ⟨part, ⟨hpart, before, after, hparts, hbefore⟩, rfl⟩
    cases part with
    | nil => cases hpart
    | cons word rest =>
        exact ⟨before, word, rest, after, hasParts_iff.mpr hparts, hpart, hbefore, rfl⟩
  · rintro ⟨before, word, rest, after, hparts, hword, hbefore, rfl⟩
    exact ⟨word :: rest, ⟨hword, before, after, hasParts_iff.mp hparts, hbefore⟩, rfl⟩

section Reading

variable {policy name : String} (hname : Text.lower name.toList = name.toList)

include hname

theorem declares_eq_false_iff : (parse policy).declares name = false ↔ Missing policy name := by
  rw [Directives.declares, Option.isSome_eq_false_iff, Option.isNone_iff_eq_none,
    Option.eq_none_iff_forall_ne_some]
  simp only [Missing, ← get?_parse_eq_some_iff hname, ne_eq]

theorem broad_iff : (parse policy).broad name = true ↔ Bad policy name := by
  simp only [Directives.broad, Option.any_eq_true, get?_parse_eq_some_iff hname, List.any_eq_true,
    isBroad, Bool.and_eq_true, Bool.not_eq_true', Bad, ← isSafe_iff, ← isEval_iff,
    Bool.not_eq_true, and_comm]

theorem evaluates_iff : (parse policy).evaluates name = true ↔ Evaluates policy name := by
  simp only [Directives.evaluates, Option.any_eq_true, get?_parse_eq_some_iff hname,
    List.any_eq_true, Evaluates, ← isEval_iff]

end Reading

theorem openDefault_iff (policy : String) :
    (parse policy).openDefault = true ↔
      Missing policy "default-src" ∨ Bad policy "default-src" := by
  rw [Directives.openDefault, Bool.or_eq_true, Bool.not_eq_true', declares_eq_false_iff (by decide),
    broad_iff (by decide)]

/-- What a policy allows, read off its directives. It is insecure when a later directive is bad, or
when scripts may come from elsewhere by `script-src` or, where that is missing, by `default-src`;
a `script-src` that allows evaluation does not make up for an open default. -/
theorem analyze_reading (policy : String) :
    ((analyze policy).unsafeEval = true ↔
      ∃ name ∈ ["default-src", "script-src", "script-src-elem", "script-src-attr", "worker-src"],
        Evaluates policy name) ∧
    ((analyze policy).insecure = true ↔
      (Bad policy "script-src-elem" ∨ Bad policy "script-src-attr" ∨ Bad policy "worker-src") ∨
      (¬Missing policy "script-src" ∧
        (Bad policy "script-src" ∨
          (Missing policy "default-src" ∨ Bad policy "default-src") ∧
            Evaluates policy "script-src")) ∨
      (Missing policy "script-src" ∧
        (Missing policy "default-src" ∨ Bad policy "default-src"))) := by
  constructor
  · have hlower : ∀ name ∈ scriptDirectives, Text.lower name.toList = name.toList := by decide
    rw [analyze_unsafeEval, List.any_eq_true]
    constructor
    · rintro ⟨name, hname, h⟩
      exact ⟨name, hname, (evaluates_iff (hlower name hname)).mp h⟩
    · rintro ⟨name, hname, h⟩
      exact ⟨name, hname, (evaluates_iff (hlower name hname)).mpr h⟩
  · have hlater : laterDirectives.any (parse policy).broad = true ↔
        Bad policy "script-src-elem" ∨ Bad policy "script-src-attr" ∨ Bad policy "worker-src" := by
      simp only [laterDirectives, List.any_cons, List.any_nil, Bool.or_false, Bool.or_eq_true]
      rw [broad_iff (by decide), broad_iff (by decide), broad_iff (by decide)]
    rw [analyze_insecure, Bool.or_eq_true, hlater, or_comm]
    apply or_congr_right
    rw [← openDefault_iff, ← @broad_iff policy "script-src" (by decide),
      ← @evaluates_iff policy "script-src" (by decide),
      ← @declares_eq_false_iff policy "script-src" (by decide)]
    cases (parse policy).declares "script-src" <;> simp

-- Without a default, a script-src that is safe but for evaluation leaves the policy insecure.
example : analyze "script-src 'self' 'unsafe-eval'" = ⟨true, true⟩ := by decide

/-- A host in the first directive for scripts makes the policy insecure. That the default is safe and
that a second directive for scripts is too does not matter. -/
theorem analyze_reading_host :
    let policy := "default-src 'self'; Script-Src 'NONCE-a1' https://cdn.test ; script-src 'none'"
    let tokens := ["'NONCE-a1'", "https://cdn.test"]
    Declared policy "script-src" tokens ∧ SafeToken "'NONCE-a1'" ∧ Bad policy "script-src" ∧
      (analyze policy).insecure = true := by
  intro policy tokens
  have hparts : HasParts policy ([["default-src".toList, "'self'".toList]] ++
      ("Script-Src".toList :: tokens.map String.toList) ::
        [["script-src".toList, "'none'".toList]]) :=
    hasParts_iff.mpr (by decide +kernel)
  have hdeclared : Declared policy "script-src" tokens :=
    ⟨_, _, _, _, hparts, by decide, by decide, by decide⟩
  have hbad : Bad policy "script-src" :=
    ⟨tokens, hdeclared, "https://cdn.test", by decide, isSafe_iff.not.mp (by decide),
      isEval_iff.not.mp (by decide)⟩
  exact ⟨hdeclared, isSafe_iff.mp (by decide), hbad,
    (analyze_reading policy).2.mpr (.inr (.inl ⟨fun hmissing => hmissing tokens hdeclared, .inl hbad⟩))⟩

end SecurityPolicy
end ExtensionLint
