/-
The migrations of ScyllaDB (`run_scylla_migrations` in `lumiere-db/src/lib.rs`). A file is cut at every semicolon, the
comment lines of each piece are dropped, and what is left is executed, unless it selects or creates the keyspace.

A semicolon in a comment cuts as well: the rest of the comment is executed with the statement below, and a statement
around the comment is executed in two halves.

- `statements`: what a file is for, the statements of its text without the comment lines.
- `Harmless`: behind a semicolon in a comment stands nothing but another comment, and no such semicolon cuts a statement
  in two.
- `migration_iff`: a file whose comments are harmless is executed as it should be, whatever the database answers. If
  none of its pieces selects or creates the keyspace, only such a file is.
- `comment_executed`: a comment that is executed.
-/
import Lumiere.Core.Grid
import Lumiere.Core.Str
import Mathlib.Data.List.Flatten

namespace Lumiere.Db

open Lumiere.Core Lumiere.Core.Grid

/-- `line.trim_start().starts_with("--")` -/
def isComment (line : String) : Bool := Str.startsWith "--" (Str.trimStart line)

/-- a piece without its comment lines, trimmed -/
def stripComments (statement : String) : String :=
  Str.trim ("\n".intercalate ((Str.lines statement).filter fun line => !isComment line))

/-- the two kinds of statements that are left out; `toUppercase` is `str::to_uppercase` -/
def isSkipped (toUppercase : String → String) (stmt : String) : Bool :=
  Str.startsWith "USE " (toUppercase stmt) || Str.startsWith "CREATE KEYSPACE" (toUppercase stmt)

section Run

variable (toUppercase : String → String) (query : List String → String → Option String)

/-- the loop over the pieces of a file: all statements executed so far, and the error that ends the migration; `query`
is the error of the database, if any, after the statements before -/
def runPieces : List String → List String → List String × Option String
  | executed, [] => (executed, none)
  | executed, statement :: pieces =>
    let stmt := stripComments statement
    if stmt.isEmpty then runPieces executed pieces
    else if isSkipped toUppercase stmt then runPieces executed pieces
    else
      match query executed stmt with
      | none => runPieces (executed ++ [stmt]) pieces
      | some e => (executed ++ [stmt], some ("CQL migration failed: " ++ e ++ " — statement: " ++ stmt))

def runFile (executed : List String) (content : String) : List String × Option String :=
  runPieces toUppercase query executed (Str.split ';' content)

/-- these statements, up to the first that fails -/
def runAll : List String → List String → List String × Option String
  | executed, [] => (executed, none)
  | executed, stmt :: stmts =>
    match query executed stmt with
    | none => runAll (executed ++ [stmt]) stmts
    | some e => (executed ++ [stmt], some ("CQL migration failed: " ++ e ++ " — statement: " ++ stmt))

end Run

/-- what is left of the pieces of a file -/
def pieces (content : String) : List String :=
  ((Str.split ';' content).map stripComments).filter fun stmt => !stmt.isEmpty

/-! ## What a file is for -/

def textLines (content : String) : List String := ((Str.lineFeeds content.toList).splitOn '\n').map String.ofList

def withoutComments (content : String) : String :=
  "\n".intercalate ((textLines content).filter fun line => !isComment line)

/-- the statements of the text without its comment lines -/
def statements (content : String) : List String :=
  ((Str.split ';' (withoutComments content)).map Str.trim).filter fun stmt => !stmt.isEmpty

/-- those that are to be executed -/
def expected (toUppercase : String → String) (content : String) : List String :=
  (statements content).filter fun stmt => !isSkipped toUppercase stmt

/-- comments stand on lines of their own: behind a semicolon of any other line none begins -/
def WholeLines (content : String) : Prop :=
  ∀ line ∈ textLines content, isComment line = false → ∀ part ∈ (Str.split ';' line).tail, isComment part = false

/-- a line in its parts between semicolons -/
def rows (content : String) : List (List (List Char)) :=
  ((Str.lineFeeds content.toList).splitOn '\n').map fun line => line.splitOn ';'

/-- a part that begins a comment -/
def isCommentCell (cell : List Char) : Bool := isComment (String.ofList cell)

/-- the parts are those of a comment -/
def isCommentRow (row : List (List Char)) : Bool := row.head?.any isCommentCell

structure Harmless (content : String) : Prop where
  /-- behind a semicolon in a comment stands nothing, or another comment -/
  quiet : ∀ line ∈ textLines content, isComment line = true → ∀ part ∈ (Str.split ';' line).tail,
    isComment part = true ∨ (Str.trim part).isEmpty = true
  /-- of the parts of a statement between the semicolons of comments, one at most is more than blank -/
  whole : ∀ parts ∈ cutColumns isCommentRow (rows content), parts.countP (hasText Str.isWhitespace) ≤ 1

/-! ## The loop -/

variable {toUppercase : String → String} {query : List String → String → Option String} {content : String}

theorem runPieces_eq (executed ps : List String) :
    runPieces toUppercase query executed ps = runAll query executed
      (((ps.map stripComments).filter fun stmt => !stmt.isEmpty).filter fun stmt => !isSkipped toUppercase stmt) := by
  induction ps generalizing executed with
  | nil => rfl
  | cons statement ps ih =>
    rw [runPieces, List.map_cons, List.filter_cons]
    by_cases hempty : (stripComments statement).isEmpty = true
    · rw [if_pos hempty, if_neg (by simp [hempty]), ih]
    · have hleft : (!(stripComments statement).isEmpty) = true := by simpa using hempty
      rw [if_neg hempty, if_pos hleft, List.filter_cons]
      by_cases hskip : isSkipped toUppercase (stripComments statement) = true
      · rw [if_pos hskip, if_neg (by simp [hskip]), ih]
      · have hrun : (!isSkipped toUppercase (stripComments statement)) = true := by simpa using hskip
        rw [if_neg hskip, if_pos hrun, runAll]
        rcases query executed (stripComments statement) with _ | e
        · exact ih _
        · rfl

theorem runFile_eq (executed : List String) :
    runFile toUppercase query executed content =
      runAll query executed ((pieces content).filter fun stmt => !isSkipped toUppercase stmt) := runPieces_eq _ _

/-- a database that accepts everything executes everything -/
theorem runAll_accepted (executed stmts : List String) :
    runAll (fun _ _ => none) executed stmts = (executed ++ stmts, none) := by
  induction stmts generalizing executed with
  | nil => rw [List.append_nil, runAll]
  | cons stmt stmts ih => rw [runAll, ih, List.append_assoc, List.singleton_append]

/-! ## Both as columns -/

@[simp] theorem isCommentRow_cons (cell : List Char) (cells : List (List Char)) :
    isCommentRow (cell :: cells) = isCommentCell cell := by
  rw [isCommentRow, List.head?_cons, Option.any_some]

theorem isCommentCell_eq (cell : List Char) :
    isCommentCell cell = ['-', '-'].isPrefixOf (cell.dropWhile Str.isWhitespace) := by
  simp only [isCommentCell, isComment, Str.startsWith, Str.trimStart, String.toList_ofList]
  rfl

theorem isWhitespace_newline : Str.isWhitespace '\n' = true := by decide

theorem toList_trim (s : String) : (Str.trim s).toList = strip Str.isWhitespace s.toList := String.toList_ofList

theorem toList_intercalate_newline (ls : List String) :
    ("\n".intercalate ls).toList = joined '\n' (ls.map String.toList) := String.toList_intercalate

theorem map_toList_map_ofList (ls : List (List Char)) : (ls.map String.ofList).map String.toList = ls := by
  rw [List.map_map]
  exact List.map_id'' (fun l => String.toList_ofList) ls

theorem map_toList_filter_isEmpty (stmts : List String) :
    (stmts.filter fun stmt => !stmt.isEmpty).map String.toList =
      (stmts.map String.toList).filter fun t => !t.isEmpty := by
  rw [List.filter_map]
  refine congrArg _ (List.filter_congr fun stmt _ => ?_)
  rw [Function.comp_apply, Bool.eq_iff_iff]
  simp

theorem map_toList_filter_isComment (cells : List (List Char)) :
    ((cells.map String.ofList).filter fun line => !isComment line).map String.toList =
      cells.filter fun cell => !isCommentCell cell := by
  rw [List.filter_map, map_toList_map_ofList]
  refine List.filter_congr fun cell _ => ?_
  rw [Function.comp_apply, isCommentCell]

theorem lineFeeds_cons {c : Char} {cs : List Char} (h : ∀ cs', c = '\r' → cs ≠ '\n' :: cs') :
    Str.lineFeeds (c :: cs) = c :: Str.lineFeeds cs := by
  rw [Str.lineFeeds]
  exact h

/-- no piece begins or ends within a line break -/
theorem splitOn_lineFeeds (cs : List Char) : (Str.lineFeeds cs).splitOn ';' = (cs.splitOn ';').map Str.lineFeeds := by
  fun_induction Str.lineFeeds cs with
  | case1 cs ih =>
    obtain ⟨piece, rest, hsplit⟩ := List.exists_cons_of_ne_nil (List.splitOn_ne_nil ';' cs)
    rw [splitOn_cons_of_ne (by decide), splitOn_cons_of_ne (by decide), splitOn_cons_of_ne (by decide), ih, hsplit]
    rfl
  | case2 c cs hne ih =>
    by_cases hc : c = ';'
    · subst hc
      rw [splitOn_cons_self, splitOn_cons_self, ih]
      rfl
    · obtain ⟨piece, rest, hsplit⟩ := List.exists_cons_of_ne_nil (List.splitOn_ne_nil ';' cs)
      rw [splitOn_cons_of_ne hc, splitOn_cons_of_ne hc, ih, hsplit, List.map_cons, List.modifyHead_cons,
        List.modifyHead_cons, List.map_cons, lineFeeds_cons]
      -- a line feed at the head of the piece is one at the head of the text
      rintro cs' rfl rfl
      have htext : (';' :: []).intercalate (cs.splitOn ';') = cs := List.intercalate_splitOn ';'
      rw [hsplit] at htext
      cases rest with
      | nil => exact hne cs' rfl (by rw [← htext, List.intercalate_singleton])
      | cons piece' rest =>
        refine hne (cs' ++ ';' :: [';'].intercalate (piece' :: rest)) rfl ?_
        rw [← htext]
        exact joined_cons ('\n' :: cs') (List.cons_ne_nil _ _)
  | case3 => rfl

/-- a line is a comment if its first part is -/
theorem isCommentRow_splitOn (line : List Char) : isCommentRow (line.splitOn ';') = isCommentCell line := by
  obtain ⟨cell, cells, hsplit⟩ := List.exists_cons_of_ne_nil (List.splitOn_ne_nil ';' line)
  rw [hsplit, isCommentRow_cons, isCommentCell_eq, isCommentCell_eq]
  induction line generalizing cell cells with
  | nil =>
    obtain ⟨rfl, -⟩ := List.cons.inj hsplit
    rfl
  | cons c line ih =>
    obtain ⟨cell', cells', hsplit'⟩ := List.exists_cons_of_ne_nil (List.splitOn_ne_nil ';' line)
    by_cases hc : c = ';'
    · subst hc
      rw [splitOn_cons_self] at hsplit
      obtain ⟨rfl, -⟩ := List.cons.inj hsplit
      rfl
    · rw [splitOn_cons_of_ne hc, hsplit'] at hsplit
      obtain ⟨rfl, -⟩ := List.cons.inj hsplit
      by_cases hblank : Str.isWhitespace c = true
      · rw [List.dropWhile_cons_of_pos hblank, List.dropWhile_cons_of_pos hblank]
        exact ih cell' cells' hsplit'
      · rw [List.dropWhile_cons_of_neg hblank, List.dropWhile_cons_of_neg hblank]
        refine congrArg (_ && ·) ?_
        -- what follows the first dash
        show ['-'].isPrefixOf cell' = ['-'].isPrefixOf line
        cases line with
        | nil =>
          obtain ⟨rfl, -⟩ := List.cons.inj hsplit'
          rfl
        | cons d line =>
          obtain ⟨cell'', cells'', hsplit''⟩ := List.exists_cons_of_ne_nil (List.splitOn_ne_nil ';' line)
          by_cases hd : d = ';'
          · subst hd
            rw [splitOn_cons_self] at hsplit'
            obtain ⟨rfl, -⟩ := List.cons.inj hsplit'
            rfl
          · rw [splitOn_cons_of_ne hd, hsplit''] at hsplit'
            obtain ⟨rfl, -⟩ := List.cons.inj hsplit'
            rfl

/-- the text of a piece; the line that `lines` leaves out is blank -/
theorem toList_stripComments (piece : List Char) : (stripComments (String.ofList piece)).toList =
    text Str.isWhitespace '\n' (((Str.lineFeeds piece).splitOn '\n').filter fun cell => !isCommentCell cell) := by
  rw [stripComments, toList_trim, toList_intercalate_newline, Str.lines, String.toList_ofList,
    map_toList_filter_isComment]
  split_ifs with hlast
  · obtain ⟨front, hfront⟩ := List.getLast?_eq_some_iff.1 hlast
    have hblank : Blank Str.isWhitespace [[]] := by simp [Blank]
    rw [hfront, List.dropLast_concat, List.filter_append]
    exact (text_append_right isWhitespace_newline hblank _).symm
  · rfl

theorem pieces_eq (content : String) : (pieces content).map String.toList =
    texts Str.isWhitespace '\n' (keptColumns (fun cell => !isCommentCell cell) (rows content)) := by
  have hpieces : ((Str.split ';' content).map stripComments).map String.toList =
      (keptColumns (fun cell => !isCommentCell cell) (rows content)).map (text Str.isWhitespace '\n') := by
    rw [keptColumns, rows, columns_splitOn (by decide), splitOn_lineFeeds, Str.split]
    simp only [List.map_map]
    exact List.map_congr_left fun piece _ => toList_stripComments piece
  rw [pieces, map_toList_filter_isEmpty, hpieces]
  rfl

theorem statements_eq (content : String) : (statements content).map String.toList =
    texts Str.isWhitespace '\n' (columns ((rows content).filter fun row => !isCommentRow row)) := by
  let kept := ((Str.lineFeeds content.toList).splitOn '\n').filter fun line => !isCommentCell line
  have htext : (withoutComments content).toList = joined '\n' kept := by
    rw [withoutComments, toList_intercalate_newline, textLines, map_toList_filter_isComment]
  have hrows : (rows content).filter (fun row => !isCommentRow row) = kept.map fun line => line.splitOn ';' := by
    rw [rows, List.filter_map]
    refine congrArg _ (List.filter_congr fun line _ => ?_)
    rw [Function.comp_apply, isCommentRow_splitOn]
  have hstatements : ((Str.split ';' (withoutComments content)).map Str.trim).map String.toList =
      ((joined '\n' kept).splitOn ';').map (strip Str.isWhitespace) := by
    rw [Str.split, htext]
    simp only [List.map_map]
    exact List.map_congr_left fun piece _ => (toList_trim _).trans (congrArg _ String.toList_ofList)
  have hcolumns : ((joined '\n' kept).splitOn ';').map (strip Str.isWhitespace) =
      (columns (kept.map fun line => line.splitOn ';')).map (text Str.isWhitespace '\n') := by
    by_cases hkept : kept = []
    · rw [hkept]
      rfl
    · have hlines : (joined '\n' kept).splitOn '\n' = kept := List.splitOn_intercalate '\n' (fun line hline => ?_) hkept
      · have hexchange : columns (((joined '\n' kept).splitOn '\n').map fun r => r.splitOn ';') =
            ((joined '\n' kept).splitOn ';').map fun c => c.splitOn '\n' := columns_splitOn (by decide) _
        rw [hlines] at hexchange
        rw [hexchange, List.map_map]
        refine List.map_congr_left fun piece _ => ?_
        rw [Function.comp_apply, text, joined, List.intercalate_splitOn]
      · have hmem := (List.mem_filter.1 hline).1
        rw [List.splitOn_eq_splitOnP] at hmem
        exact fun h => by simpa using not_sep_of_mem_splitOnP hmem h
  rw [statements, map_toList_filter_isEmpty, hstatements, hcolumns, hrows]
  rfl

/-! ## Harmless comments -/

/-- a line in its parts: the first says whether it is a comment -/
theorem exists_row (line : List Char) : ∃ cell cells, line.splitOn ';' = cell :: cells ∧
    isComment (String.ofList line) = isCommentCell cell ∧
      (Str.split ';' (String.ofList line)).tail = cells.map String.ofList := by
  obtain ⟨cell, cells, hsplit⟩ := List.exists_cons_of_ne_nil (List.splitOn_ne_nil ';' line)
  refine ⟨cell, cells, hsplit, ?_, ?_⟩
  · have hrow := isCommentRow_splitOn line
    rw [hsplit, isCommentRow_cons] at hrow
    rw [hrow, isCommentCell]
  · rw [Str.split, String.toList_ofList, hsplit]
    rfl

theorem isEmpty_trim {cell : List Char} :
    (Str.trim (String.ofList cell)).isEmpty = true ↔ cell.all Str.isWhitespace = true := by
  rw [String.isEmpty_iff, ← String.toList_eq_nil_iff, toList_trim, String.toList_ofList, strip_eq_nil, List.all_eq_true]

theorem row_ne_nil : ∀ row ∈ rows content, row ≠ [] := by
  intro row hrow
  obtain ⟨line, -, rfl⟩ := List.mem_map.1 hrow
  exact List.splitOn_ne_nil ';' line

theorem keep_of_wholeLines (h : WholeLines content) :
    ∀ row ∈ rows content, isCommentRow row = false → ∀ cell ∈ row, (!isCommentCell cell) = true := by
  intro row hrow hcode
  obtain ⟨line, hline, rfl⟩ := List.mem_map.1 hrow
  obtain ⟨cell, cells, hsplit, hfirst, htail⟩ := exists_row line
  rw [hsplit, isCommentRow_cons] at hcode
  rw [hsplit]
  have hparts := h (String.ofList line) (List.mem_map_of_mem hline) (hfirst.trans hcode)
  rw [htail, List.forall_mem_map] at hparts
  refine List.forall_mem_cons.2 ⟨by rw [hcode]; rfl, fun part hpart => ?_⟩
  rw [isCommentCell, hparts part hpart]
  rfl

theorem first_of_comment : ∀ row ∈ rows content, isCommentRow row = true →
    ∀ cell ∈ row.head?, (!isCommentCell cell) = false := by
  intro row _ hcomment cell hcell
  rw [isCommentRow, Option.mem_def.1 hcell, Option.any_some] at hcomment
  rw [hcomment]
  rfl

/-- what is kept of comments is blank -/
def Quiet (content : String) : Prop :=
  ∀ row ∈ rows content, isCommentRow row = true →
    ∀ cell ∈ row, (!isCommentCell cell) = true → cell.all Str.isWhitespace = true

theorem quiet_iff : Quiet content ↔ ∀ line ∈ textLines content, isComment line = true →
    ∀ part ∈ (Str.split ';' line).tail, isComment part = true ∨ (Str.trim part).isEmpty = true := by
  rw [Quiet, rows, textLines, List.forall_mem_map, List.forall_mem_map]
  refine forall₂_congr fun line _ => ?_
  obtain ⟨cell, cells, hsplit, hfirst, htail⟩ := exists_row line
  rw [hsplit, hfirst, htail, isCommentRow_cons, List.forall_mem_map]
  refine imp_congr_right fun hcell => ?_
  rw [List.forall_mem_cons, and_iff_right (by simp [hcell])]
  refine forall₂_congr fun part _ => ?_
  rw [isEmpty_trim, Bool.not_eq_true', ← isCommentCell, or_iff_not_imp_left, Bool.not_eq_true]

/-- the pieces of a file with quiet comments are the parts of its statements -/
theorem pieces_of_quiet (h : WholeLines content) (hquiet : Quiet content) : (pieces content).map String.toList =
    texts Str.isWhitespace '\n' (cutColumns isCommentRow (rows content)).flatten := by
  rw [pieces_eq]
  refine texts_of_padded isWhitespace_newline (HeadPadded.forall₂ ?_)
  exact headPadded_keptColumns row_ne_nil (keep_of_wholeLines h) first_of_comment hquiet

theorem statements_of_cut (content : String) : (statements content).map String.toList =
    texts Str.isWhitespace '\n' ((cutColumns isCommentRow (rows content)).map List.flatten) := by
  rw [statements_eq, map_flatten_cutColumns]

theorem pieces_of_harmless (h : WholeLines content) (hharmless : Harmless content) :
    pieces content = statements content := by
  refine List.map_injective_iff.2 (fun _ _ => String.toList_inj.1) ?_
  rw [pieces_of_quiet h (quiet_iff.2 hharmless.quiet), statements_of_cut]
  exact texts_flatten isWhitespace_newline hharmless.whole

/-- text that is executed from a comment adds to the weight, a statement that is cut in two to the number -/
theorem harmless_of_pieces (h : WholeLines content) (hpieces : pieces content = expected toUppercase content) :
    Harmless content := by
  have hsub : (expected toUppercase content).Sublist (statements content) := List.filter_sublist
  rw [← hpieces] at hsub
  have hquiet : Quiet content := by
    have hweight : weight Str.isWhitespace ((pieces content).map String.toList).flatten ≤
        weight Str.isWhitespace ((statements content).map String.toList).flatten := (hsub.map _).flatten.countP_le
    rw [pieces_eq, statements_eq, weight_texts isWhitespace_newline, weight_texts isWhitespace_newline,
      weight_keptColumns (keep_of_wholeLines h)] at hweight
    have hzero : weight Str.isWhitespace
        (((rows content).filter isCommentRow).flatten.filter fun cell => !isCommentCell cell).flatten = 0 := by omega
    intro row hrow hcomment cell hcell hkept
    refine List.all_eq_true.2 fun c hc => weight_eq_zero.1 hzero c (List.mem_flatten.2 ⟨cell, ?_, hc⟩)
    exact List.mem_filter.2 ⟨List.mem_flatten.2 ⟨row, List.mem_filter.2 ⟨hrow, hcomment⟩, hcell⟩, hkept⟩
  refine ⟨quiet_iff.1 hquiet, (length_texts_flatten isWhitespace_newline _).2 ?_⟩
  rw [← pieces_of_quiet h hquiet, ← statements_of_cut, List.length_map, List.length_map]
  exact hsub.length_le

/-- the file is executed as its statements, whatever the database answers -/
def RunsExactly (toUppercase : String → String) (content : String) : Prop :=
  ∀ query executed, runFile toUppercase query executed content = runAll query executed (expected toUppercase content)

/-- **A file with harmless comments is executed exactly.** If none of its pieces selects or creates the keyspace, it is
executed exactly only if its comments are harmless; such a piece is left out, with whatever text a comment has put
into it. -/
theorem migration_iff (toUppercase : String → String) (content : String) (hlines : WholeLines content) :
    (Harmless content → RunsExactly toUppercase content) ∧
      ((∀ stmt ∈ pieces content, isSkipped toUppercase stmt = false) →
        (RunsExactly toUppercase content ↔ Harmless content)) := by
  have hexact : Harmless content → RunsExactly toUppercase content := by
    intro hharmless query executed
    rw [runFile_eq, pieces_of_harmless hlines hharmless, expected]
  refine ⟨hexact, fun hnone => ⟨fun hruns => ?_, hexact⟩⟩
  have hrun := hruns (fun _ _ => none) []
  have hall : (pieces content).filter (fun stmt => !isSkipped toUppercase stmt) = pieces content :=
    List.filter_eq_self.2 fun stmt hstmt => by rw [hnone stmt hstmt]; rfl
  rw [runFile_eq, hall, runAll_accepted, runAll_accepted, List.nil_append, List.nil_append, Prod.mk.injEq] at hrun
  exact harmless_of_pieces hlines hrun.1

/-- `str::to_uppercase` of a text in ASCII -/
def asciiUppercase (s : String) : String := String.ofList (s.toList.map Char.toUpper)

/-- a comment with a semicolon, above a statement -/
def noted : String := "-- ids; texts\nCREATE TABLE names (id INT);"

/-- **Half of a comment is executed**, in front of the statement below it. -/
theorem comment_executed :
    WholeLines noted ∧
      (runFile asciiUppercase (fun _ _ => none) [] noted).1 = ["texts\nCREATE TABLE names (id INT)"] ∧
      expected asciiUppercase noted = ["CREATE TABLE names (id INT)"] ∧
      ¬ RunsExactly asciiUppercase noted := by
  have hrun : (runFile asciiUppercase (fun _ _ => none) [] noted).1 =
      ["texts\nCREATE TABLE names (id INT)"] := by decide
  have hexpected : expected asciiUppercase noted = ["CREATE TABLE names (id INT)"] := by decide
  refine ⟨by unfold WholeLines; decide, hrun, hexpected, fun h => ?_⟩
  have hsame := congrArg Prod.fst (h (fun _ _ => none) [])
  rw [hrun, runAll_accepted, hexpected] at hsame
  exact absurd hsame (by decide)

/-- a statement with a comment in it -/
example : pieces "DROP TABLE\n  -- the names;\n  names;" = ["DROP TABLE", "names"] := by decide

/-- comments between statements, one with a semicolon at its end -/
def headed : String := "-- names;\r\nDROP TABLE\r\n  -- all of them\r\n  names;\r\nUSE chat;"

theorem migration_iff_headed : RunsExactly asciiUppercase headed :=
  (migration_iff asciiUppercase headed (by unfold WholeLines; decide)).1 ⟨by decide, by decide⟩

end Lumiere.Db
