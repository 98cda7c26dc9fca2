/-!
# Line ends

Of the three ways to end a line only the line feed is kept: a carriage return, alone or before a
line feed, becomes one.
-/

namespace Stencil.Text

def unifyNewlines : List Char → List Char
  | [] => []
  | '\r' :: '\n' :: rest => '\n' :: unifyNewlines rest
  | '\r' :: rest => '\n' :: unifyNewlines rest
  | c :: rest => c :: unifyNewlines rest

theorem unifyNewlines_eq_self {text : List Char} (hplain : '\r' ∉ text) :
    unifyNewlines text = text := by
  fun_induction unifyNewlines text with
  | case1 => rfl
  | case2 rest _ => simp at hplain
  | case3 rest _ _ => simp at hplain
  | case4 c rest _ _ ih => simp_all

theorem notMem_unifyNewlines (text : List Char) : '\r' ∉ unifyNewlines text := by
  fun_induction unifyNewlines text with
  | case1 => simp
  | case2 rest ih => simpa using ih
  | case3 rest _ ih => simpa using ih
  | case4 c rest hpair hsingle ih =>
    simp only [List.mem_cons, not_or]
    exact ⟨fun heq => hsingle heq.symm, ih⟩

end Stencil.Text
