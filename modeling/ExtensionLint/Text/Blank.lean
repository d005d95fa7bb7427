/-!
White space. A blank is a character with the Unicode property White_Space; trimming and word
splitting both go by this class, so text that only differs in the kind of blank reads alike.
-/

namespace ExtensionLint.Text

/-- Holds of the characters with the Unicode property White_Space. -/
def isBlank (c : Char) : Bool :=
  let n := c.toNat
  (9 ≤ n && n ≤ 13) || n == 0x20 || n == 0x85 || n == 0xA0 || n == 0x1680 ||
    (0x2000 ≤ n && n ≤ 0x200A) || n == 0x2028 || n == 0x2029 || n == 0x202F || n == 0x205F ||
    n == 0x3000

def trimStart (s : List Char) : List Char := s.dropWhile isBlank

def trimEnd (s : List Char) : List Char := (s.reverse.dropWhile isBlank).reverse

def trim (s : List Char) : List Char := trimEnd (trimStart s)

section Trim

variable {s blanks : List Char} {c : Char}

/-- A character that is no blank keeps the blanks after it. -/
theorem trimStart_append_cons (hc : isBlank c = false) (s t : List Char) :
    trimStart (s ++ c :: t) = trimStart s ++ c :: t := by
  have hself : (c :: t).dropWhile isBlank = c :: t := List.dropWhile_cons_of_neg (by simp [hc])
  rw [trimStart, List.dropWhile_append, hself]
  split
  · next hempty => rw [trimStart, List.isEmpty_iff.mp hempty, List.nil_append]
  · rfl

/-- Blanks in front of such a character are left out. -/
theorem trimStart_blanks_append (hblanks : ∀ d ∈ blanks, isBlank d = true) (hc : isBlank c = false)
    (t : List Char) : trimStart (blanks ++ c :: t) = c :: t := by
  rw [trimStart, List.dropWhile_append_of_pos hblanks]
  exact List.dropWhile_cons_of_neg (by simp [hc])

/-- A character that is no blank keeps the blanks before it. -/
theorem trimEnd_append_cons (hc : isBlank c = false) (s t : List Char) :
    trimEnd (s ++ c :: t) = s ++ c :: trimEnd t := by
  have hreverse : (s ++ c :: t).reverse = t.reverse ++ c :: s.reverse := by simp
  have hkept := trimStart_append_cons hc t.reverse s.reverse
  rw [trimEnd, hreverse, ← trimStart, hkept, trimEnd, ← trimStart]
  simp

theorem trim_append_cons (hc : isBlank c = false) (s t : List Char) :
    trim (s ++ c :: t) = trimStart s ++ c :: trimEnd t := by
  rw [trim, trimStart_append_cons hc, trimEnd_append_cons hc]

/-- Without a blank at the end only blanks at the front are left out. -/
theorem trim_eq_trimStart (h : ∀ c ∈ s.getLast?, isBlank c = false) : trim s = trimStart s := by
  rcases List.eq_nil_or_concat s with rfl | ⟨front, c, rfl⟩
  · rfl
  · have hc : isBlank c = false := h c (by simp)
    rw [List.concat_eq_append, trim_append_cons hc, trimStart_append_cons hc]
    rfl

theorem trim_eq_self (h : ∀ c ∈ s, isBlank c = false) : trim s = s := by
  rw [trim_eq_trimStart fun c hc => h c (List.mem_of_getLast? hc), trimStart]
  cases s with
  | nil => rfl
  | cons c s => exact List.dropWhile_cons_of_neg (by simp [h c List.mem_cons_self])

end Trim

end ExtensionLint.Text
