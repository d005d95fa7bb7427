import ExtensionLint.Proofs.PolicyText

/-!
Policies with one token more. A further directive may take a finding back, as a safe `script-src`
does, but a further token never does: the directives that are declared stay the same, and each allows
what it allowed before. So a finding about a policy is one about the loosened policy too, and a safe
token, which allows nothing, changes no finding.
-/

namespace ExtensionLint

namespace SecurityPolicy

/-- Holds of directives and others that declare the same and allow at least as much. -/
structure Directives.Within (directives others : Directives) : Prop where
  declares : ∀ name ∈ scriptDirectives, directives.declares name = others.declares name
  broad : ∀ name ∈ scriptDirectives, directives.broad name = true → others.broad name = true
  evaluates : ∀ name ∈ scriptDirectives,
    directives.evaluates name = true → others.evaluates name = true

section Within

variable {policy other : String}

theorem Directives.Within.openDefault {directives others : Directives}
    (h : directives.Within others) (hopen : directives.openDefault = true) :
    others.openDefault = true := by
  rw [Directives.openDefault, Bool.or_eq_true] at hopen ⊢
  rw [← h.declares "default-src" (by decide)]
  exact hopen.imp_right (h.broad "default-src" (by decide))

/-- With the same directives a policy that allows more is insecure if the first one is. -/
theorem Directives.Within.insecure (h : (parse policy).Within (parse other))
    (hinsecure : (analyze policy).insecure = true) : (analyze other).insecure = true := by
  have hlater : laterDirectives.any (parse policy).broad = true →
      laterDirectives.any (parse other).broad = true := by
    rw [List.any_eq_true, List.any_eq_true]
    rintro ⟨name, hname, hbroad⟩
    have hscript : name ∈ scriptDirectives :=
      List.mem_cons_of_mem _ (List.mem_cons_of_mem _ hname)
    exact ⟨name, hname, h.broad name hscript hbroad⟩
  rw [analyze_insecure, Bool.or_eq_true] at hinsecure ⊢
  refine hinsecure.imp (fun hscript => ?_) hlater
  rw [← h.declares "script-src" (by decide)]
  cases hdeclares : (parse policy).declares "script-src" with
  | false =>
      rw [hdeclares, if_neg (by decide)] at hscript
      rw [if_neg (by decide)]
      exact h.openDefault hscript
  | true =>
      rw [hdeclares, if_pos rfl, Bool.or_eq_true, Bool.and_eq_true] at hscript
      rw [if_pos rfl, Bool.or_eq_true, Bool.and_eq_true]
      exact hscript.imp (h.broad "script-src" (by decide)) fun ⟨hopen, hevaluates⟩ =>
        ⟨h.openDefault hopen, h.evaluates "script-src" (by decide) hevaluates⟩

theorem Directives.Within.unsafeEval (h : (parse policy).Within (parse other))
    (heval : (analyze policy).unsafeEval = true) : (analyze other).unsafeEval = true := by
  rw [analyze_unsafeEval, List.any_eq_true] at heval ⊢
  obtain ⟨name, hname, hevaluates⟩ := heval
  exact ⟨name, hname, h.evaluates name hname hevaluates⟩

theorem analyze_eq_of_within (h : (parse policy).Within (parse other))
    (hother : (parse other).Within (parse policy)) : analyze policy = analyze other := by
  ext
  · exact Bool.eq_iff_iff.mpr ⟨h.insecure, hother.insecure⟩
  · exact Bool.eq_iff_iff.mpr ⟨h.unsafeEval, hother.unsafeEval⟩

end Within

/-- Holds of a policy and one in which some directive has a token more at its end. -/
def Loosens (token : Word) (policy extended : String) : Prop :=
  ∃ before name tokens after, parts policy = before ++ (name :: tokens) :: after ∧
    parts extended = before ++ (name :: (tokens ++ [token.signs])) :: after

section Loosened

variable {token : Word} {policy extended : String}

theorem get?_parse_eq_find? {name : String} (hname : Text.lower name.toList = name.toList)
    (policy : String) :
    (parse policy).get? name =
      ((parts policy).find? (declaresName name)).map fun part => part.tail.map String.ofList := by
  rw [Directives.get?, parse, lookup_filterMap_directive? hname]
  rfl

/-- The tokens of a directive stay as they are, or the new one comes after them. -/
theorem Loosens.get? (h : Loosens token policy extended) {name : String}
    (hname : Text.lower name.toList = name.toList) :
    (parse extended).get? name = (parse policy).get? name ∨
      ∃ tokens, (parse policy).get? name = some tokens ∧
        (parse extended).get? name = some (tokens ++ [token.text]) := by
  obtain ⟨before, own, tokens, after, hpolicy, hextended⟩ := h
  rw [get?_parse_eq_find? hname, get?_parse_eq_find? hname, hpolicy, hextended, List.find?_append,
    List.find?_append]
  cases before.find? (declaresName name) with
  | some part => exact .inl rfl
  | none =>
      rw [Option.none_or, Option.none_or, List.find?_cons, List.find?_cons]
      have hsame : declaresName name (own :: (tokens ++ [token.signs])) =
          declaresName name (own :: tokens) := rfl
      rw [hsame]
      cases declaresName name (own :: tokens) with
      | false => exact .inl rfl
      | true => exact .inr ⟨tokens.map String.ofList, rfl, by simp [Word.text]⟩

theorem lower_of_mem_scriptDirectives :
    ∀ name ∈ scriptDirectives, Text.lower name.toList = name.toList := by decide

/-- A test that some token of a directive passes still has one after a token more. -/
theorem Loosens.any (h : Loosens token policy extended) {test : String → Bool} {name : String}
    (hname : name ∈ scriptDirectives)
    (hany : ((parse policy).get? name).any (fun tokens => tokens.any test) = true) :
    ((parse extended).get? name).any (fun tokens => tokens.any test) = true := by
  obtain hsame | ⟨tokens, htokens, hmore⟩ := h.get? (lower_of_mem_scriptDirectives name hname)
  · rwa [hsame]
  · rw [htokens, Option.any_some] at hany
    rw [hmore, Option.any_some, List.any_append, hany, Bool.true_or]

/-- A test that the token fails is passed by the tokens that were there, or by none. -/
theorem Loosens.any_of_fails (h : Loosens token policy extended) {test : String → Bool}
    (hfails : test token.text = false) {name : String} (hname : name ∈ scriptDirectives)
    (hany : ((parse extended).get? name).any (fun tokens => tokens.any test) = true) :
    ((parse policy).get? name).any (fun tokens => tokens.any test) = true := by
  obtain hsame | ⟨tokens, htokens, hmore⟩ := h.get? (lower_of_mem_scriptDirectives name hname)
  · rwa [hsame] at hany
  · rw [hmore, Option.any_some, List.any_append, List.any_cons, hfails, List.any_nil, Bool.or_false,
      Bool.or_false] at hany
    rwa [htokens, Option.any_some]

theorem Loosens.declares (h : Loosens token policy extended) {name : String}
    (hname : name ∈ scriptDirectives) :
    (parse policy).declares name = (parse extended).declares name := by
  rw [Directives.declares, Directives.declares]
  obtain hsame | ⟨tokens, htokens, hmore⟩ := h.get? (lower_of_mem_scriptDirectives name hname)
  · rw [hsame]
  · rw [htokens, hmore]
    rfl

theorem Loosens.within (h : Loosens token policy extended) :
    (parse policy).Within (parse extended) where
  declares _ hname := h.declares hname
  broad _ hname := h.any hname
  evaluates _ hname := h.any hname

/-- A safe token allows nothing. -/
theorem Loosens.within_of_isSafe (h : Loosens token policy extended)
    (hsafe : isSafe token.text = true) : (parse extended).Within (parse policy) := by
  have hbroad : isBroad token.text = false := by simp [isBroad, hsafe]
  have heval : isEval token.text = false := by
    cases heval : isEval token.text with
    | false => rfl
    | true => exact absurd (not_isSafe_of_isEval heval) (by simp [hsafe])
  exact ⟨fun _ hname => (h.declares hname).symm, fun _ hname => h.any_of_fails hbroad hname,
    fun _ hname => h.any_of_fails heval hname⟩

end Loosened

/-- The texts between semicolons with a token at the end of the first one that declares a name. -/
def widenFirst (name : String) (token : Word) : List (List Char) → List (List Char)
  | [] => []
  | segment :: rest =>
      if declaresName name (Text.fields Text.isBlank segment) then
        (segment ++ ' ' :: token.signs) :: rest
      else segment :: widenFirst name token rest

/-- A policy with a token at the end of its first directive of a name. -/
def withToken (name : String) (token : Word) (policy : String) : String :=
  String.ofList (Text.join [';'] (widenFirst name token (Text.splitBy (· == ';') policy.toList)))

section WithToken

variable {name : String} {token : Word}

theorem fields_widened (segment : List Char) :
    Text.fields Text.isBlank (segment ++ ' ' :: token.signs) =
      Text.fields Text.isBlank segment ++ [token.signs] := by
  have htoken : Text.fields Text.isBlank (token.signs ++ []) = [token.signs] :=
    Text.fields_word_append token.nonempty (fun c hc => (token.plain c hc).1) (by simp)
  rw [List.append_nil] at htoken
  rw [Text.fields_append_separator (by decide), htoken]

theorem semicolon_widenFirst {segments : List (List Char)}
    (h : ∀ segment ∈ segments, ∀ c ∈ segment, (c == ';') = false) :
    ∀ segment ∈ widenFirst name token segments, ∀ c ∈ segment, (c == ';') = false := by
  induction segments with
  | nil => exact fun _ hsegment => absurd hsegment List.not_mem_nil
  | cons segment segments ih =>
      obtain ⟨hsegment, hrest⟩ := List.forall_mem_cons.mp h
      rw [widenFirst]
      split
      · refine List.forall_mem_cons.mpr ⟨fun c hc => ?_, hrest⟩
        rcases List.mem_append.mp hc with hold | hnew
        · exact hsegment c hold
        · rcases List.mem_cons.mp hnew with rfl | htoken
          · decide
          · exact beq_eq_false_iff_ne.mpr (token.plain c htoken).2
      · exact List.forall_mem_cons.mpr ⟨hsegment, ih hrest⟩

/-- One part that declares the name has a token more at its end. -/
theorem exists_widenFirst {segments : List (List Char)}
    (h : ∃ part ∈ segments.map (Text.fields Text.isBlank), declaresName name part = true) :
    ∃ before word tokens after,
      segments.map (Text.fields Text.isBlank) = before ++ (word :: tokens) :: after ∧
        (widenFirst name token segments).map (Text.fields Text.isBlank) =
          before ++ (word :: (tokens ++ [token.signs])) :: after := by
  induction segments with
  | nil => simp at h
  | cons segment segments ih =>
      rw [widenFirst]
      split
      · next hdeclares =>
          cases hwords : Text.fields Text.isBlank segment with
          | nil =>
              rw [hwords] at hdeclares
              cases hdeclares
          | cons word tokens =>
              refine ⟨[], word, tokens, segments.map (Text.fields Text.isBlank), ?_, ?_⟩
              · simp [hwords]
              · simp [fields_widened, hwords]
      · next hdeclares =>
          rw [List.map_cons, List.exists_mem_cons_iff] at h
          obtain ⟨before, word, tokens, after, hold, hnew⟩ := ih (h.resolve_left hdeclares)
          refine ⟨Text.fields Text.isBlank segment :: before, word, tokens, after, ?_, ?_⟩
          · rw [List.map_cons, hold, List.cons_append]
          · rw [List.map_cons, hnew, List.cons_append]

/-- Where there is a directive of a name, a token can be put at its end. -/
theorem loosens_withToken {policy : String} (h : ∃ tokens, Declared policy name tokens) :
    Loosens token policy (withToken name token policy) := by
  obtain ⟨_, before, word, tokens, after, hparts, hword, -⟩ := h
  have hdeclared : ∃ part ∈ parts policy, declaresName name part = true :=
    ⟨word :: tokens, hasParts_iff.mp hparts ▸ by simp, hword⟩
  have hne : widenFirst name token (Text.splitBy (· == ';') policy.toList) ≠ [] := by
    cases hsegments : Text.splitBy (· == ';') policy.toList with
    | nil => exact absurd hsegments (Text.splitBy_ne_nil _ _)
    | cons segment segments =>
        rw [widenFirst]
        split <;> exact List.cons_ne_nil _ _
  have hextended : parts (withToken name token policy) =
      (widenFirst name token (Text.splitBy (· == ';') policy.toList)).map
        (Text.fields Text.isBlank) := by
    rw [parts, withToken, String.toList_ofList, Text.splitBy_join (by decide)
      (semicolon_widenFirst Text.not_separates_of_mem_splitBy) hne]
  rw [Loosens, hextended]
  exact exists_widenFirst hdeclared

end WithToken

/-- A token more at the end of a directive, the first of its name or a later one, hides no finding:
a policy that is insecure stays insecure, and one that allows evaluation still does. A safe token
changes neither. -/
theorem analyze_of_loosened (token : Word) (policy : String) :
    (∀ name, (∃ tokens, Declared policy name tokens) →
      Loosens token policy (withToken name token policy)) ∧
    ∀ extended, Loosens token policy extended →
      ((analyze policy).insecure = true → (analyze extended).insecure = true) ∧
      ((analyze policy).unsafeEval = true → (analyze extended).unsafeEval = true) ∧
      (isSafe token.text = true → analyze extended = analyze policy) := by
  refine ⟨fun name hdeclared => loosens_withToken hdeclared, fun extended hloosens => ?_⟩
  refine ⟨hloosens.within.insecure, hloosens.within.unsafeEval, fun hsafe => ?_⟩
  exact analyze_eq_of_within (hloosens.within_of_isSafe hsafe) hloosens.within

/-- A script that is let in by its mark does not make up for scripts from anywhere. -/
theorem analyze_of_loosened_mark :
    let mark : Word := .ofText "'nonce-1'" (by decide) (by decide)
    let policy := "object-src *; Script-Src 'unsafe-eval' *; script-src 'self'"
    let extended := "object-src *; Script-Src 'unsafe-eval' * 'nonce-1'; script-src 'self'"
    (∃ tokens, Declared policy "script-src" tokens) ∧ Loosens mark policy extended ∧
      isSafe mark.text = true ∧ analyze policy = ⟨true, true⟩ ∧
      (analyze extended).insecure = true ∧ (analyze extended).unsafeEval = true ∧
      analyze extended = analyze policy := by
  intro mark policy extended
  obtain ⟨hwith, hkept⟩ := analyze_of_loosened mark policy
  have hdeclared : ∃ tokens, Declared policy "script-src" tokens :=
    ⟨["'unsafe-eval'", "*"], [["object-src".toList, ['*']]], "Script-Src".toList,
      ["'unsafe-eval'".toList, ['*']], [["script-src".toList, "'self'".toList]],
      hasParts_iff.mpr (by decide +kernel), by decide +kernel⟩
  have hextended : withToken "script-src" mark policy = extended := by decide +kernel
  have hloosens : Loosens mark policy extended := hextended ▸ hwith "script-src" hdeclared
  have hpolicy : analyze policy = ⟨true, true⟩ := by decide
  have hsafe : isSafe mark.text = true := by decide
  obtain ⟨hinsecure, heval, hsame⟩ := hkept extended hloosens
  exact ⟨hdeclared, hloosens, hsafe, hpolicy, hinsecure (by rw [hpolicy]), heval (by rw [hpolicy]),
    hsame hsafe⟩

end SecurityPolicy

end ExtensionLint
