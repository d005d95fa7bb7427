import ExtensionLint.Proofs.Lists
import ExtensionLint.Proofs.Members
import ExtensionLint.Proofs.PolicyText

/-!
The wording of a policy. What a policy allows is settled by the tokens of its directives: by which
there are, up to letter case, and not by how often or where they stand. Neither does the order of
directives of different names matter, nor what further directives of a name say after the first.
-/

namespace ExtensionLint

namespace SecurityPolicy

/-- Holds of directives of one name with the same tokens in any order and number, letter case
aside. -/
structure Directive.Alike (a b : Directive) : Prop where
  name : a.name.Alike b.name
  kept : ∀ token ∈ a.tokens, ∃ other ∈ b.tokens, token.Alike other
  known : ∀ other ∈ b.tokens, ∃ token ∈ a.tokens, token.Alike other

instance (a b : Directive) : Decidable (a.Alike b) :=
  decidable_of_iff (a.name.Alike b.name ∧
    (∀ token ∈ a.tokens, ∃ other ∈ b.tokens, token.Alike other) ∧
    ∀ other ∈ b.tokens, ∃ token ∈ a.tokens, token.Alike other)
    ⟨fun ⟨hname, hkept, hknown⟩ => ⟨hname, hkept, hknown⟩, fun h => ⟨h.name, h.kept, h.known⟩⟩

/-- No two directives have one name, letter case aside. -/
def Distinct (directives : List Directive) : Prop :=
  directives.Pairwise fun a b => ¬a.name.Alike b.name

instance (directives : List Directive) : Decidable (Distinct directives) :=
  inferInstanceAs (Decidable (directives.Pairwise _))

/-- Holds of directives and the same ones in any order and in other words, with further directives
of their names after them. -/
def Reworded (directives others : List Directive) : Prop :=
  ∃ ordered changed further, directives.Perm ordered ∧
    List.Forall₂ Directive.Alike ordered changed ∧ others = changed ++ further ∧
    ∀ extra ∈ further, ∃ directive ∈ directives, directive.name.Alike extra.name

section Tokens

/-- Holds of tests that do not look at the case of ASCII letters. -/
def IgnoresCase (test : String → Bool) : Prop := ∀ a b : Word, a.Alike b → test a.text = test b.text

theorem isEval_ignoresCase : IgnoresCase isEval := by
  intro a b h
  rw [isEval, isEval, Word.toList_text, Word.toList_text, Text.sameLetters, Text.sameLetters,
    Word.alike_iff.mp h]

theorem isSafe_ignoresCase : IgnoresCase isSafe := by
  intro a b h
  rw [isSafe, isSafe, Word.toList_text, Word.toList_text, Word.alike_iff.mp h]

theorem isBroad_ignoresCase : IgnoresCase isBroad := by
  intro a b h
  rw [isBroad, isBroad, isEval_ignoresCase a b h, isSafe_ignoresCase a b h]

theorem Directive.Alike.any_eq {test : String → Bool} (htest : IgnoresCase test) {a b : Directive}
    (h : a.Alike b) : (a.tokens.map Word.text).any test = (b.tokens.map Word.text).any test := by
  rw [Bool.eq_iff_iff, List.any_map, List.any_map, List.any_eq_true, List.any_eq_true]
  constructor
  · rintro ⟨token, htoken, hholds⟩
    obtain ⟨other, hother, halike⟩ := h.kept token htoken
    exact ⟨other, hother, (htest token other halike).symm.trans hholds⟩
  · rintro ⟨other, hother, hholds⟩
    obtain ⟨token, htoken, halike⟩ := h.known other hother
    exact ⟨token, htoken, (htest token other halike).trans hholds⟩

end Tokens

section Found

variable {directives others : List Directive}

theorem Directive.key_eq_iff {a b : Directive} : a.key = b.key ↔ a.name.Alike b.name := by
  rw [Directive.key, Directive.key, String.ofList_inj, Word.alike_iff]

/-- Holds of two searches that both find nothing, or find what two like directives hold. -/
def SameFound (a b : Option (List String)) : Prop :=
  a = none ∧ b = none ∨ ∃ first second : Directive, first.Alike second ∧
    a = some (first.tokens.map Word.text) ∧ b = some (second.tokens.map Word.text)

theorem lookup_of_forall₂ (h : List.Forall₂ Directive.Alike directives others) (name : String) :
    SameFound ((directives.map Directive.entry).lookup name)
      ((others.map Directive.entry).lookup name) := by
  induction h with
  | nil => exact .inl ⟨rfl, rfl⟩
  | @cons a b directives others halike _ ih =>
      have hkey : a.key = b.key := Directive.key_eq_iff.mpr halike.name
      rw [List.map_cons, List.map_cons, List.lookup_cons, List.lookup_cons]
      simp only [Directive.entry]
      rw [← hkey]
      cases name == a.key with
      | true => exact .inr ⟨a, b, halike, rfl, rfl⟩
      | false => exact ih

/-- A directive that comes after one of its name is not found. -/
theorem lookup_append_of_known {further : List Directive}
    (hfurther : ∀ extra ∈ further, ∃ directive ∈ directives, directive.key = extra.key)
    (name : String) :
    ((directives ++ further).map Directive.entry).lookup name =
      (directives.map Directive.entry).lookup name := by
  rw [List.map_append, List.lookup_append]
  cases hfound : (directives.map Directive.entry).lookup name with
  | some tokens => rfl
  | none =>
      rw [Option.none_or, List.lookup_eq_none_iff]
      rw [List.lookup_eq_none_iff] at hfound
      rintro _ hentry
      obtain ⟨extra, hextra, rfl⟩ := List.mem_map.mp hentry
      obtain ⟨directive, hdirective, hkey⟩ := hfurther extra hextra
      have := hfound directive.entry (List.mem_map_of_mem hdirective)
      rwa [Directive.entry, hkey] at this

theorem nodup_keys (h : Distinct directives) :
    ((directives.map Directive.entry).map Prod.fst).Nodup := by
  rw [List.map_map, List.Nodup, List.pairwise_map]
  exact h.imp fun hname hkey => hname (Directive.key_eq_iff.mp hkey)

theorem Reworded.lookup (hdistinct : Distinct directives) (h : Reworded directives others)
    (name : String) :
    SameFound ((directives.map Directive.entry).lookup name)
      ((others.map Directive.entry).lookup name) := by
  obtain ⟨ordered, changed, further, hperm, halike, rfl, hfurther⟩ := h
  rw [lookup_append_of_known ?_, ← Ordered.lookup_of_perm (nodup_keys hdistinct)
    (hperm.map Directive.entry)]
  · exact lookup_of_forall₂ halike name
  · intro extra hextra
    obtain ⟨directive, hdirective, hname⟩ := hfurther extra hextra
    obtain ⟨other, hother, hchanged⟩ : ∃ other ∈ changed, directive.Alike other :=
      exists_of_mem_of_forall₂ halike.flip (hperm.subset hdirective)
    refine ⟨other, hother, ?_⟩
    rw [← Directive.key_eq_iff.mpr hchanged.name, Directive.key_eq_iff.mpr hname]

end Found

section Verdict

variable {directives others : Directives} {name : String}

theorem declares_eq (h : SameFound (directives.get? name) (others.get? name)) :
    directives.declares name = others.declares name := by
  rw [Directives.declares, Directives.declares]
  obtain ⟨hnone, hnone'⟩ | ⟨_, _, _, hsome, hsome'⟩ := h
  · rw [hnone, hnone']
  · rw [hsome, hsome']
    rfl

theorem any_eq {test : String → Bool} (htest : IgnoresCase test)
    (h : SameFound (directives.get? name) (others.get? name)) :
    ((directives.get? name).any fun tokens => tokens.any test) =
      (others.get? name).any fun tokens => tokens.any test := by
  obtain ⟨hnone, hnone'⟩ | ⟨_, _, halike, hsome, hsome'⟩ := h
  · rw [hnone, hnone']
  · rw [hsome, hsome', Option.any_some, Option.any_some, halike.any_eq htest]

/-- What a policy allows depends on what the searches for its directives find. -/
theorem analyze_eq_of_found {policy other : String}
    (h : ∀ name, SameFound ((parse policy).get? name) ((parse other).get? name)) :
    analyze policy = analyze other := by
  have hdeclares : (parse policy).declares = (parse other).declares :=
    funext fun name => declares_eq (h name)
  have hbroad : (parse policy).broad = (parse other).broad :=
    funext fun name => any_eq isBroad_ignoresCase (h name)
  have hevaluates : (parse policy).evaluates = (parse other).evaluates :=
    funext fun name => any_eq isEval_ignoresCase (h name)
  ext
  · simp only [analyze_insecure, Directives.openDefault, hdeclares, hbroad, hevaluates]
  · rw [analyze_unsafeEval, analyze_unsafeEval, hevaluates]

end Verdict

/-- What a policy allows depends on what its text means only: on directives of different names, in
any order and with their tokens in any order and number, letter case, blanks, empty directives and
further directives of the same names left aside. -/
theorem analyze_of_reworded {directives others : List Directive} {policy : String}
    (hdistinct : Distinct directives) (hreworded : Reworded directives others)
    (hwrites : Writes policy others) : analyze policy = analyze (text directives) := by
  refine (analyze_eq_of_found fun name => ?_).symm
  rw [parse_of_writes hwrites, parse_of_writes (writes_text directives)]
  exact hreworded.lookup hdistinct name

namespace Sample

def script : Word := .ofText "script-src" (by decide) (by decide)

def loudScript : Word := .ofText "Script-SRC" (by decide) (by decide)

def object : Word := .ofText "object-src" (by decide) (by decide)

def package : Word := .ofText "'self'" (by decide) (by decide)

def loudPackage : Word := .ofText "'SELF'" (by decide) (by decide)

def nothing : Word := .ofText "'none'" (by decide) (by decide)

def anything : Word := .ofText "*" (by decide) (by decide)

/-- A policy that only lets in the package. -/
def strict : List Directive := [⟨script, [package]⟩, ⟨object, [nothing]⟩]

/-- The same in another order, with a token written twice and a directive that comes too late. -/
def careless : List Directive :=
  [⟨object, [nothing, nothing]⟩, ⟨loudScript, [loudPackage]⟩, ⟨script, [anything]⟩]

end Sample

open Sample in
theorem analyze_of_reworded_careless :
    Distinct strict ∧ Reworded strict careless ∧
    Writes ";\tobject-src 'none' 'none'; Script-SRC 'SELF';script-src *" careless ∧
    analyze ";\tobject-src 'none' 'none'; Script-SRC 'SELF';script-src *"
      = analyze "script-src 'self';object-src 'none'" ∧
    analyze "script-src 'self';object-src 'none'" = ⟨false, false⟩ := by
  have hdistinct : Distinct strict := by decide
  have hreworded : Reworded strict careless := by
    refine ⟨strict.reverse, careless.take 2, careless.drop 2, strict.reverse_perm.symm, ?_, rfl, ?_⟩
    · exact .cons (by decide) (.cons (by decide) .nil)
    · decide
  have hwrites : Writes ";\tobject-src 'none' 'none'; Script-SRC 'SELF';script-src *" careless :=
    ⟨_, .empty (spaced_join []) (.directive ((spaced_join _).cons (by decide : Text.isBlank '\t'))
      (.directive ((spaced_join _).cons (by decide : Text.isBlank ' '))
        (.directive (spaced_join _) .nil))), rfl⟩
  have hsame := analyze_of_reworded hdistinct hreworded hwrites
  exact ⟨hdistinct, hreworded, hwrites, hsame, by decide⟩

end SecurityPolicy

end ExtensionLint
