import ExtensionLint.Proofs.AttributeSearch
import ExtensionLint.Proofs.Filling

/-!
The attributes of a tag. A tag is written as a list of attributes with blanks before each and around
its equals sign, and with quotes of either kind. What the search finds is the value of the first
attribute that has exactly the name: longer names are passed over, and so are the values of other
attributes, unless the name stands right after a blank in them too. The size of an image is therefore
read off the first attributes of the three names.
-/

namespace ExtensionLint.Svg

/-- An attribute as it is written in a tag: blanks, the name, an equals sign and the value in quotes.
There may be blanks around the equals sign. -/
structure Attribute where
  gap : List Char
  name : List Char
  beforeSign : List Char
  afterSign : List Char
  quote : Char
  value : List Char
  gap_ne_nil : gap ≠ [] := by decide
  blank_gap : gap.all Text.isBlank = true := by decide
  legal_name : name.all isNameSign = true := by decide
  blank_beforeSign : beforeSign.all Text.isBlank = true := by decide
  blank_afterSign : afterSign.all Text.isBlank = true := by decide
  isQuote_quote : isQuote quote = true := by decide
  quote_not_mem_value : quote ∉ value := by decide

/-- What an attribute is written as after its name. -/
def Attribute.assignment (a : Attribute) : List Char :=
  a.beforeSign ++ '=' :: (a.afterSign ++ a.quote :: (a.value ++ [a.quote]))

def Attribute.text (a : Attribute) : List Char := a.gap ++ (a.name ++ a.assignment)

/-- The text of the root element's tag with some attributes, up to its closing bracket. -/
def tag (attributes : List Attribute) : List Char :=
  rootOpening ++ attributes.flatMap Attribute.text

/-- The value that the first attribute of exactly this name has, if there is one. -/
def declared? (name : List Char) (attributes : List Attribute) : Option (List Char) :=
  (attributes.find? (·.name == name)).map Attribute.value

namespace Attribute

variable (a : Attribute)

theorem isBlank_getLast_gap : Text.isBlank (a.gap.getLast a.gap_ne_nil) = true :=
  List.all_eq_true.mp a.blank_gap _ (List.getLast_mem a.gap_ne_nil)

theorem assignment_append (rest : List Char) :
    a.assignment ++ rest =
      a.beforeSign ++ '=' :: (a.afterSign ++ a.quote :: (a.value ++ a.quote :: rest)) := by
  simp [Attribute.assignment]

/-- What follows the name of an attribute gives its value. -/
theorem follow_assignment (rest : List Char) : follow (a.assignment ++ rest) = .value (some a.value) := by
  have hquoted : quoted? (a.quote :: (a.value ++ a.quote :: rest)) = some a.value := by
    rw [quoted?, Text.splitFirst_append a.quote_not_mem_value]
    rfl
  rw [follow, a.assignment_append,
    Text.trimStart_blanks_append (List.all_eq_true.mp a.blank_beforeSign) (by decide)]
  simp only
  rw [Text.trimStart_blanks_append (List.all_eq_true.mp a.blank_afterSign)
    (isBlank_of_isQuote a.isQuote_quote)]
  simp only [if_pos a.isQuote_quote, hquoted]

theorem isNameSign_head?_assignment (rest : List Char) :
    ∀ c ∈ (a.assignment ++ rest).head?, isNameSign c = false := by
  rw [a.assignment_append]
  cases hbefore : a.beforeSign with
  | nil => simpa using (by decide : isNameSign '=' = false)
  | cons c before =>
      have hc := List.all_eq_true.mp a.blank_beforeSign c (hbefore ▸ List.mem_cons_self)
      simpa using isNameSign_of_isBlank hc

end Attribute

section Attributes

variable {name : List Char} (a : Attribute)

theorem attribute?_text_append (hname : IsName name) (rest : List Char) :
    attribute? name (a.text ++ rest) =
      attribute? name (a.gap.getLast a.gap_ne_nil :: (a.name ++ (a.assignment ++ rest))) := by
  rw [Attribute.text, List.append_assoc, List.append_assoc,
    attribute?_blanks_append hname a.gap_ne_nil a.blank_gap]

/-- An attribute of the name is found, whatever comes after it. -/
theorem attribute?_text_append_self (hname : IsName a.name) (rest : List Char) :
    attribute? a.name (a.text ++ rest) = some a.value := by
  rw [attribute?_text_append a hname, attribute?_blank_name_append hname a.isBlank_getLast_gap,
    a.follow_assignment]
  rfl

/-- An attribute of another name is passed over, if its value is clear of the name. -/
theorem attribute?_text_append_of_ne (hname : IsName name) (hne : a.name ≠ name)
    (hvalue : Clear name a.value) (rest : List Char) :
    attribute? name (a.text ++ rest) = attribute? name rest := by
  have hbefore : Clear name a.beforeSign := clear_of_blanks hname a.blank_beforeSign
  have hafter : Clear name a.afterSign := clear_of_blanks hname a.blank_afterSign
  have hquote := isNameSign_of_isQuote a.isQuote_quote
  have hplain := isBlank_of_isQuote a.isQuote_quote
  calc attribute? name (a.text ++ rest)
      = attribute? name (a.gap.getLast a.gap_ne_nil :: (a.name ++ (a.assignment ++ rest))) :=
        attribute?_text_append a hname rest
    _ = attribute? name (a.assignment ++ rest) :=
        attribute?_blank_word_append hname a.isBlank_getLast_gap a.legal_name hne
          (a.isNameSign_head?_assignment rest)
    _ = attribute? name (a.afterSign ++ a.quote :: (a.value ++ a.quote :: rest)) := by
        rw [a.assignment_append]
        exact attribute?_append_cons_of_clear hname hbefore (by decide) (by decide) _
    _ = attribute? name (a.value ++ a.quote :: rest) :=
        attribute?_append_cons_of_clear hname hafter hquote hplain _
    _ = attribute? name rest := attribute?_append_cons_of_clear hname hvalue hquote hplain _

/-- In a list of attributes, the first one of the name is found. -/
theorem attribute?_flatMap_text (hname : IsName name) {attributes : List Attribute}
    (hvalues : ∀ a ∈ attributes, Clear name a.value) :
    attribute? name (attributes.flatMap Attribute.text) = declared? name attributes := by
  induction attributes with
  | nil => exact attribute?_nil hname.ne_nil
  | cons a attributes ih =>
      obtain ⟨hvalue, hrest⟩ := List.forall_mem_cons.mp hvalues
      rw [List.flatMap_cons, declared?, List.find?_cons]
      by_cases hsame : a.name = name
      · subst hsame
        rw [attribute?_text_append_self a hname, beq_self_eq_true]
        rfl
      · rw [attribute?_text_append_of_ne a hname hsame hvalue, ih hrest, beq_false_of_ne hsame]
        rfl

/-- The opening of a tag is passed over, for after it comes a blank or nothing. -/
theorem attribute?_tag_eq_flatMap (hname : IsName name) (attributes : List Attribute) :
    attribute? name (tag attributes) = attribute? name (attributes.flatMap Attribute.text) := by
  refine attribute?_append_of_clear hname (clear_of_word (by decide)) ?_
  cases attributes with
  | nil => simp
  | cons a attributes =>
      obtain ⟨c, gap, hgap⟩ := List.exists_cons_of_ne_nil a.gap_ne_nil
      have hc := List.all_eq_true.mp a.blank_gap c (hgap ▸ List.mem_cons_self)
      rw [List.flatMap_cons, Attribute.text, hgap]
      simpa using isNameSign_of_isBlank hc

end Attributes

/-- The names of the attributes that the size of an image is read from. -/
def sizeNames : List String := ["width", "height", "viewBox"]

theorem isName_of_mem_sizeNames : ∀ name ∈ sizeNames, IsName name.toList := by decide

section Tag

variable {attributes others : List Attribute}

/-- The search in a tag gives the value of the first attribute that has exactly the name. Attributes
with other names, also longer ones, and what stands in their values make no difference. -/
theorem attribute_of_tag {name : String} (hname : name ∈ sizeNames)
    (hvalues : ∀ a ∈ attributes, Clear name.toList a.value) :
    attribute? name.toList (tag attributes) = declared? name.toList attributes := by
  have hlegal := isName_of_mem_sizeNames name hname
  rw [attribute?_tag_eq_flatMap hlegal]
  exact attribute?_flatMap_text hlegal hvalues

namespace Sample

/-- An attribute as it is mostly written: a space before it, double quotes and no more blanks. -/
def plain (name value : String) (hname : name.toList.all isNameSign = true)
    (hvalue : '"' ∉ value.toList) : Attribute where
  gap := [' ']
  name := name.toList
  beforeSign := []
  afterSign := []
  quote := '"'
  value := value.toList
  legal_name := hname
  quote_not_mem_value := hvalue

/-- A width in single quotes, with blanks wherever there may be some. -/
def spacedWidth : Attribute where
  gap := ['\t', ' ']
  name := "width".toList
  beforeSign := [' ']
  afterSign := ['\n']
  quote := Char.ofNat 39
  value := "48px".toList

def written : List Attribute :=
  [plain "stroke-width" "3" (by decide) (by decide), plain "widthx" "5" (by decide) (by decide),
    plain "id" "width='7' -width" (by decide) (by decide), spacedWidth,
    plain "width" "9" (by decide) (by decide)]

end Sample

/-- Longer names and values with the name in them do not hide the attribute that comes later. -/
theorem attribute_of_tag_strokeWidth :
    "width" ∈ sizeNames ∧ (∀ a ∈ Sample.written, Clear "width".toList a.value) ∧
    tag Sample.written = ("<svg stroke-width=\"3\" widthx=\"5\" id=\"width='7' -width\"" ++
      "\t width =\n'48px' width=\"9\"").toList ∧
    attribute? "width".toList (tag Sample.written) = some "48px".toList := by
  have hclear : ∀ a ∈ Sample.written, Clear "width".toList a.value := by decide
  exact ⟨by decide, hclear, by decide, attribute_of_tag (by decide) hclear⟩

/-- The size of an image is read off the first attributes of the three names and nothing else. -/
theorem size_tag_congr (hvalues : ∀ name ∈ sizeNames, ∀ a ∈ attributes, Clear name.toList a.value)
    (hothers : ∀ name ∈ sizeNames, ∀ a ∈ others, Clear name.toList a.value)
    (h : ∀ name ∈ sizeNames, declared? name.toList attributes = declared? name.toList others) :
    size (tag attributes) = size (tag others) := by
  have hfound : ∀ name ∈ sizeNames,
      attribute? name.toList (tag attributes) = attribute? name.toList (tag others) := by
    intro name hname
    have hlegal := isName_of_mem_sizeNames name hname
    rw [attribute?_tag_eq_flatMap hlegal, attribute?_flatMap_text hlegal (hvalues name hname),
      h name hname, attribute?_tag_eq_flatMap hlegal,
      attribute?_flatMap_text hlegal (hothers name hname)]
  rw [size, size, hfound "width" (by decide), hfound "height" (by decide),
    hfound "viewBox" (by decide)]

end Tag

end ExtensionLint.Svg
