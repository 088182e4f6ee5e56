import DocComments.Text.Basic

/-!
# Texts on a terminal

A text from outside may hold control characters that a terminal would act on. In a message they are
written out, so that the message shows what the text is and does nothing else.

* `forTerminal` writes out the control characters of a text; other texts it leaves alone
  (`forTerminal_eq_self`).
-/

namespace DocComments.Text

/-- The control characters below U+0080 that move the cursor, ring the bell, delete, or start a
sequence of commands. Tabs and line breaks are not among them. -/
def terminalControls : List Char :=
  ['\x07', '\x08', '\x0c', '\x1b', '\x7f']

/-- Is `c` one of the control characters from U+0080 on? -/
def isUpperControl (c : Char) : Bool :=
  0x80 ≤ c.toNat && c.toNat ≤ 0x9f

/-- A character as it is written in a message: a control character by its code point, in two
hexadecimal digits or between braces. -/
def showControl (c : Char) : Text :=
  if terminalControls.contains c then
    ['\\', 'x', Nat.digitChar (c.toNat / 16), Nat.digitChar (c.toNat % 16)]
  else if isUpperControl c then
    ['\\', 'u', '\x7b'] ++ Nat.toDigits 16 c.toNat ++ ['\x7d']
  else [c]

/-- A text as it is written in a message. -/
def forTerminal (t : Text) : Text :=
  t.flatMap showControl

theorem forTerminal_eq_self {t : Text}
    (h : ∀ c ∈ t, c ∉ terminalControls ∧ isUpperControl c = false) : forTerminal t = t := by
  induction t with
  | nil => rfl
  | cons c t ih =>
    obtain ⟨hc, hu⟩ := h c (List.mem_cons_self ..)
    have ht := ih fun d hd => h d (List.mem_cons_of_mem _ hd)
    rw [forTerminal] at ht ⊢
    rw [List.flatMap_cons, ht, showControl, if_neg (by simpa using hc), hu]
    rfl

end DocComments.Text
