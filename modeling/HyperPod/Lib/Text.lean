import Mathlib.Data.List.Basic
import Mathlib.Data.List.TakeWhile

/-!
# Lines, prefixes and paths

Texts are lists of characters.  `lines` cuts a text at its line feeds, `stripPrefixes` takes
a pattern off the front as often as it stands there, and `join` appends a relative path to a
path.
-/

namespace Text

/-- A line without the carriage return at its end. -/
def chomp (line : List Char) : List Char :=
  if line.getLast? = some '\r' then line.dropLast else line

/-- The lines of a text, after the characters `line`, in reverse, of the first one.  A text
that ends in a line feed has no empty line after it, and a last line without a line feed
keeps its carriage return. -/
def linesFrom : List Char → List Char → List (List Char)
  | line, [] => if line = [] then [] else [line.reverse]
  | line, c :: cs =>
    if c = '\n' then chomp line.reverse :: linesFrom [] cs else linesFrom (c :: line) cs

def lines (text : List Char) : List (List Char) := linesFrom [] text

/-- `text` without the patterns at its front, at most `n` of them. -/
def stripPrefixes (pat : List Char) : Nat → List Char → List Char
  | 0, text => text
  | n + 1, text =>
    if pat.isPrefixOf text then stripPrefixes pat n (text.drop pat.length) else text

/-- The path `rel` under `base`; an absolute path replaces it. -/
def join (base rel : List Char) : List Char :=
  if rel.head? = some '/' then rel
  else match base.getLast? with
    | none | some '/' => base ++ rel
    | some _ => base ++ '/' :: rel

variable {l rest text pat : List Char}

theorem chomp_isPrefix_self (l : List Char) : chomp l <+: l := by
  unfold chomp
  split
  · exact List.dropLast_prefix l
  · exact List.prefix_rfl

theorem chomp_of_getLast? {c : Char} (h : l.getLast? = some c) (hc : c ≠ '\r') : chomp l = l := by
  unfold chomp
  rw [h]
  exact if_neg fun heq => hc (Option.some.inj heq)

/-- Text in front of a line is not what `chomp` cuts. -/
theorem chomp_append (p : List Char) (h : l ≠ []) : chomp (p ++ l) = p ++ chomp l := by
  unfold chomp
  rw [List.getLast?_append_of_ne_nil p h, List.dropLast_append_of_ne_nil h]
  split <;> rfl

theorem linesFrom_append (line : List Char) (h : '\n' ∉ l) :
    linesFrom line (l ++ '\n' :: rest) = chomp (line.reverse ++ l) :: lines rest := by
  induction l generalizing line with
  | nil =>
    rw [List.append_nil]
    rfl
  | cons c cs ih =>
    rw [List.mem_cons, not_or] at h
    rw [List.cons_append, linesFrom, if_neg (Ne.symm h.1), ih (c :: line) h.2, List.reverse_cons,
      List.append_assoc]
    rfl

/-- The first line of a text. -/
theorem lines_append (h : '\n' ∉ l) : lines (l ++ '\n' :: rest) = chomp l :: lines rest :=
  linesFrom_append [] h

/-- The first line that starts with `pat`, after lines that do not. -/
theorem find?_lines {ls : List (List Char)} (hls : ∀ l ∈ ls, '\n' ∉ l ∧ ¬ pat <+: l)
    (h : '\n' ∉ l) (hl : pat <+: chomp l) :
    (lines (ls.flatMap (· ++ ['\n']) ++ (l ++ '\n' :: rest))).find? pat.isPrefixOf =
      some (chomp l) := by
  induction ls with
  | nil =>
    show (lines (l ++ '\n' :: rest)).find? _ = _
    rw [lines_append h]
    exact List.find?_cons_of_pos (List.isPrefixOf_iff_prefix.mpr hl)
  | cons x ls ih =>
    obtain ⟨⟨hnl, hx⟩, hls⟩ := List.forall_mem_cons.mp hls
    rw [List.flatMap_cons, List.append_assoc, List.append_assoc, List.singleton_append,
      lines_append hnl]
    have hchomp : ¬ pat.isPrefixOf (chomp x) = true := fun hp =>
      hx ((List.isPrefixOf_iff_prefix.mp hp).trans (chomp_isPrefix_self x))
    rw [List.find?_cons_of_neg hchomp]
    exact ih hls

/-- One pattern goes when there is no other behind it. -/
theorem stripPrefixes_append {n : Nat} (hn : n ≠ 0) (h : ¬ pat <+: text) :
    stripPrefixes pat n (pat ++ text) = text := by
  obtain ⟨n, rfl⟩ := Nat.exists_eq_succ_of_ne_zero hn
  rw [stripPrefixes, if_pos (List.isPrefixOf_iff_prefix.mpr (List.prefix_append pat text)),
    List.drop_left]
  cases n with
  | zero => rfl
  | succ n => rw [stripPrefixes, if_neg (fun hp => h (List.isPrefixOf_iff_prefix.mp hp))]

theorem length_join_le (base rel : List Char) :
    (join base rel).length ≤ base.length + 1 + rel.length := by
  unfold join
  split
  · omega
  · split
    · rw [List.length_append]
      omega
    · rw [List.length_append]
      omega
    · rw [List.length_append, List.length_cons]
      omega

/-- A relative path under a path that does not end in a separator. -/
theorem join_of_getLast? {base rel : List Char} {c : Char} (hrel : rel.head? ≠ some '/')
    (hbase : base.getLast? = some c) (hc : c ≠ '/') : join base rel = base ++ '/' :: rel := by
  unfold join
  rw [if_neg hrel, hbase]
  split
  · next heq => cases heq
  · next heq => exact absurd (Option.some.inj heq) hc
  · rfl

end Text
