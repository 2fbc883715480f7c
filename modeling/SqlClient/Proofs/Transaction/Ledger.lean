import SqlClient.Proofs.Number.Digits
import SqlClient.Server
/-!
# A transactional server

A server that carries out the commands of scopes by their text: `BEGIN`, `COMMIT` and `ROLLBACK`,
and savepoints inside a transaction. A savepoint's name means the most recent one of that name;
rolling back to it keeps it, and releasing it removes it with everything set after it. A refusal
aborts the transaction, which then only rolls back. All other statements are writes, and whether
they are carried out is for a judge to say.
-/
namespace SqlClient

open SqlClient.Wire

structure Write where
  sql : String
  params : List (Option Bytes)
  deriving DecidableEq, Repr

namespace Ledger

/-- A place in a transaction to go back to: what was pending when it was set. -/
structure Savepoint where
  name : String
  pending : List Write
  deriving DecidableEq, Repr

structure Block where
  saved : List Savepoint
  pending : List Write
  aborted : Bool
  deriving DecidableEq, Repr

structure Books where
  durable : List Write
  block : Option Block
  deriving DecidableEq, Repr

namespace Books

def abort (b : Books) : Books := { b with block := b.block.map fun t => { t with aborted := true } }

def isAborted (b : Books) : Bool := b.block.any Block.aborted

/-- Outside of transactions a write is for good at once. -/
def record (w : Write) (b : Books) : Books :=
  match b.block with
  | none => { b with durable := b.durable ++ [w] }
  | some t => { b with block := some { t with pending := t.pending ++ [w] } }

def visible (b : Books) : List Write := b.durable ++ (b.block.map Block.pending).getD []

end Books

inductive Control where
  | begin
  | commit
  | rollback
  | savepoint (name : String)
  | rollbackTo (name : String)
  | release (name : String)
  deriving DecidableEq, Repr

def Control.ofWords? : List String → Option Control
  | ["BEGIN"] => some .begin
  | ["COMMIT"] => some .commit
  | ["ROLLBACK"] => some .rollback
  | ["SAVEPOINT", name] => some (.savepoint name)
  | ["ROLLBACK", "TO", "SAVEPOINT", name] => some (.rollbackTo name)
  | ["RELEASE", "SAVEPOINT", name] => some (.release name)
  | _ => none

def words (cs : List Char) : List String :=
  ((cs.splitOn ' ').filter (!·.isEmpty)).map String.ofList

def controls? (sql : String) : Option (List Control) :=
  ((sql.toList.splitOn ';').map words).mapM Control.ofWords?

def refusal (code message : String) : ServerError := ⟨code, message, none, none, none⟩

def abortedRefusal : ServerError :=
  refusal "25P02" "current transaction is aborted, commands ignored until end of transaction block"

def noTransaction : ServerError := refusal "25P01" "there is no transaction in progress"

def noSavepoint : ServerError := refusal "3B001" "savepoint does not exist"

def syntaxError : ServerError := refusal "42601" "syntax error"

def changeBlock (f : Block → Except ServerError Block) (b : Books) :
    Except ServerError Unit × Books :=
  match b.block with
  | none => (.error noTransaction, b)
  | some t =>
    match f t with
    | .ok t => (.ok (), { b with block := some t })
    | .error e => (.error e, b.abort)

def sinceSavepoint (name : String) (t : Block) : List Savepoint :=
  t.saved.dropWhile (·.name != name)

/-- What a control does. A commit of an aborted transaction rolls it back. -/
def control (b : Books) : Control → Except ServerError Unit × Books
  | .begin =>
    match b.block with
    | none => (.ok (), { b with block := some ⟨[], [], false⟩ })
    | some t => if t.aborted then (.error abortedRefusal, b) else (.ok (), b)
  | .commit =>
    match b.block with
    | none => (.ok (), b)
    | some t => (.ok (), ⟨if t.aborted then b.durable else b.durable ++ t.pending, none⟩)
  | .rollback => (.ok (), { b with block := none })
  | .savepoint name => b |> changeBlock fun t =>
    if t.aborted then .error abortedRefusal
    else .ok { t with saved := ⟨name, t.pending⟩ :: t.saved }
  | .rollbackTo name => b |> changeBlock fun t =>
    match sinceSavepoint name t with
    | [] => .error noSavepoint
    | point :: before => .ok ⟨point :: before, point.pending, false⟩
  | .release name => b |> changeBlock fun t =>
    if t.aborted then .error abortedRefusal
    else
      match sinceSavepoint name t with
      | [] => .error noSavepoint
      | _ :: before => .ok { t with saved := before }

def runControls : List Control → Books → Except ServerError Unit × Books
  | [], b => (.ok (), b)
  | c :: cs, b =>
    match control b c with
    | (.ok (), b) => runControls cs b
    | (.error e, b) => (.error e, b)

def runCommand (command : ScopeCommand) (b : Books) : Except ServerError Unit × Books :=
  match controls? command.sql with
  | some cs => runControls cs b
  | none => (.error syntaxError, b.abort)

/-- Who says what becomes of the statements that are no controls, with a memory of its own. -/
structure Judge (γ : Type) where
  prepare : List Write → String → γ → Except ServerError Prepared × γ
  execute : List Write → Write → γ → Except ServerError (List (List (Option Bytes))) × γ

end Ledger

structure Ledger (γ : Type) where
  books : Ledger.Books
  memory : γ

namespace Ledger

variable {γ α : Type}

def reply : Except ServerError α → Reply α
  | .ok a => .answered a
  | .error e => .refused e

def judged (l : Ledger γ) (ask : List Write → γ → Except ServerError α × γ) (done : Books → Books) :
    Except ServerError α × Ledger γ :=
  if l.books.isAborted then (.error abortedRefusal, l)
  else
    match ask l.books.visible l.memory with
    | (.ok a, m) => (.ok a, ⟨done l.books, m⟩)
    | (.error e, m) => (.error e, ⟨l.books.abort, m⟩)

def prepare (judge : Judge γ) (sql : String) (l : Ledger γ) :
    Except ServerError Prepared × Ledger γ :=
  l.judged (fun seen m => judge.prepare seen sql m) id

def execute (judge : Judge γ) (w : Write) (l : Ledger γ) :
    Except ServerError (List (List (Option Bytes))) × Ledger γ :=
  l.judged (fun seen m => judge.execute seen w m) (Books.record w)

def server (judge : Judge γ) : Server (Ledger γ) where
  connect _ l := (.ok (), l)
  prepare _ sql l := (l.prepare judge sql).map reply id
  execute _ sql params l := (l.execute judge ⟨sql, params⟩).map reply id
  batch _ command l :=
    ((runCommand command l.books).1 |> reply, { l with books := (runCommand command l.books).2 })

def new (memory : γ) : Ledger γ := ⟨⟨[], none⟩, memory⟩

end Ledger

namespace ScopeCommand

open SqlClient.Ledger

theorem toList_savepointName (depth : Nat) :
    (savepointName depth).toList = "pgplus_sp_".toList ++ Nat.toDigits 10 depth := by
  rw [savepointName, String.toList_append, Nat.toString_eq_repr, Nat.toList_repr]

theorem savepointName_inj {i j : Nat} (h : savepointName i = savepointName j) : i = j := by
  have hl := congrArg String.toList h
  rw [toList_savepointName, toList_savepointName] at hl
  have value := congrArg Number.digitsValue (List.append_cancel_left hl)
  exact (Number.digitsValue_decimalDigits i).symm.trans
    (value.trans (Number.digitsValue_decimalDigits j))

theorem not_mem_savepointName {c : Char} (hc : c ∉ "pgplus_sp_".toList) (hd : c.isDigit = false)
    (depth : Nat) : c ∉ (savepointName depth).toList := by
  rw [toList_savepointName]
  intro h
  rcases List.mem_append.mp h with h | h
  · exact hc h
  · have digit := Nat.isDigit_of_mem_toDigits (by decide) (by decide) h
    rw [hd] at digit
    cases digit

theorem savepointName_ne_nil (depth : Nat) : (savepointName depth).toList ≠ [] := by
  rw [toList_savepointName]
  exact fun h => absurd (List.append_eq_nil_iff.mp h).1 (by decide)

def controls (c : ScopeCommand) : List Control :=
  let name := savepointName c.depth
  if c.depth ≤ 1 then
    match c.action with
    | .begin => [.begin]
    | .commit => [.commit]
    | .rollback | .discard => [.rollback]
  else
    match c.action with
    | .begin => [.savepoint name]
    | .commit => [.release name]
    | .rollback => [.rollbackTo name]
    | .discard => [.rollbackTo name, .release name]

end ScopeCommand

namespace Ledger

open ScopeCommand

structure Word (s : String) : Prop where
  nonempty : s.toList ≠ []
  space : ' ' ∉ s.toList
  semicolon : ';' ∉ s.toList

theorem word_savepointName (depth : Nat) : Word (savepointName depth) :=
  ⟨savepointName_ne_nil depth, not_mem_savepointName (by decide) (by decide) depth,
    not_mem_savepointName (by decide) (by decide) depth⟩

def phrase (ws : List String) : List Char := List.intercalate [' '] (ws.map String.toList)

theorem words_phrase {ws : List String} (h : ∀ w ∈ ws, Word w) (hn : ws ≠ []) :
    words (phrase ws) = ws := by
  have spaces : ∀ l ∈ ws.map String.toList, ' ' ∉ l := by
    intro l hl
    obtain ⟨w, hw, rfl⟩ := List.mem_map.mp hl
    exact (h w hw).space
  have kept : (ws.map String.toList).filter (!·.isEmpty) = ws.map String.toList := by
    rw [List.filter_eq_self]
    intro l hl
    obtain ⟨w, hw, rfl⟩ := List.mem_map.mp hl
    simpa using (h w hw).nonempty
  rw [words, phrase, List.splitOn_intercalate _ spaces (by simpa using hn), kept, List.map_map]
  exact (List.map_congr_left fun w _ => String.ofList_toList).trans (List.map_id ws)

theorem words_space (cs : List Char) : words (' ' :: cs) = words cs := by
  rw [words, List.splitOn_cons_eq_if_modifyHead]
  rfl

theorem semicolon_not_mem_phrase {ws : List String} (h : ∀ w ∈ ws, Word w) : ';' ∉ phrase ws := by
  induction ws with
  | nil => exact List.not_mem_nil
  | cons w ws ih =>
    have hw := (h w List.mem_cons_self).semicolon
    have ih := ih fun v hv => h v (List.mem_cons_of_mem w hv)
    cases ws with
    | nil => simpa [phrase] using hw
    | cons v ws =>
      simp only [phrase, List.map_cons, List.intercalate_cons_cons] at ih ⊢
      simp [hw, ih]

theorem phrase_concat {ws : List String} (hn : ws ≠ []) (w : String) :
    phrase (ws ++ [w]) = phrase ws ++ ' ' :: w.toList := by
  induction ws with
  | nil => exact absurd rfl hn
  | cons v ws ih =>
    cases ws with
    | nil => simp [phrase]
    | cons u ws =>
      have ih := ih (List.cons_ne_nil _ _)
      simp only [phrase, List.map_cons, List.cons_append, List.intercalate_cons_cons] at ih ⊢
      rw [ih]
      simp

theorem toList_append_word {lead : String} (ws : List String)
    (h : lead.toList = phrase ws ++ [' ']) (hn : ws ≠ []) (w : String) :
    (lead ++ w).toList = phrase (ws ++ [w]) := by
  rw [String.toList_append, h, phrase_concat hn, List.append_assoc, List.singleton_append]

theorem controls?_phrase {sql : String} {ws : List String} (hs : sql.toList = phrase ws)
    (h : ∀ w ∈ ws, Word w) (hn : ws ≠ []) : controls? sql = (Control.ofWords? ws).map ([·]) := by
  have whole : (List.intercalate [';'] [phrase ws]).splitOn ';' = [phrase ws] :=
    List.splitOn_intercalate ';' (by simpa using semicolon_not_mem_phrase h) (List.cons_ne_nil _ _)
  rw [List.intercalate_singleton] at whole
  rw [controls?, hs, whole, List.map_singleton, words_phrase h hn, List.mapM_cons, List.mapM_nil]
  cases Control.ofWords? ws <;> rfl

theorem word_literal {s : String} (h : s.toList ≠ [] ∧ ' ' ∉ s.toList ∧ ';' ∉ s.toList) : Word s :=
  ⟨h.1, h.2.1, h.2.2⟩

section Named

variable (depth : Nat)

theorem words_savepoint : ∀ w ∈ ["SAVEPOINT", savepointName depth], Word w := by
  intro w hw
  simp only [List.mem_cons, List.not_mem_nil, or_false] at hw
  rcases hw with rfl | rfl
  · exact word_literal (by decide)
  · exact word_savepointName depth

theorem words_release : ∀ w ∈ ["RELEASE", "SAVEPOINT", savepointName depth], Word w := by
  intro w hw
  rcases List.mem_cons.mp hw with rfl | hw
  · exact word_literal (by decide)
  · exact words_savepoint depth w hw

theorem words_rollbackTo :
    ∀ w ∈ ["ROLLBACK", "TO", "SAVEPOINT", savepointName depth], Word w := by
  intro w hw
  rcases List.mem_cons.mp hw with rfl | hw
  · exact word_literal (by decide)
  · rcases List.mem_cons.mp hw with rfl | hw
    · exact word_literal (by decide)
    · exact words_savepoint depth w hw

theorem toList_savepoint : ("SAVEPOINT " ++ savepointName depth).toList =
    phrase ["SAVEPOINT", savepointName depth] :=
  toList_append_word ["SAVEPOINT"] (by decide) (by decide) _

theorem toList_release : ("RELEASE SAVEPOINT " ++ savepointName depth).toList =
    phrase ["RELEASE", "SAVEPOINT", savepointName depth] :=
  toList_append_word ["RELEASE", "SAVEPOINT"] (by decide) (by decide) _

theorem toList_rollbackTo : ("ROLLBACK TO SAVEPOINT " ++ savepointName depth).toList =
    phrase ["ROLLBACK", "TO", "SAVEPOINT", savepointName depth] :=
  toList_append_word ["ROLLBACK", "TO", "SAVEPOINT"] (by decide) (by decide) _

theorem controls?_discard : controls? ("ROLLBACK TO SAVEPOINT " ++ savepointName depth ++
    "; RELEASE SAVEPOINT " ++ savepointName depth) =
      some [.rollbackTo (savepointName depth), .release (savepointName depth)] := by
  have parts : ("ROLLBACK TO SAVEPOINT " ++ savepointName depth ++
      "; RELEASE SAVEPOINT " ++ savepointName depth).toList =
      List.intercalate [';'] [phrase ["ROLLBACK", "TO", "SAVEPOINT", savepointName depth],
        ' ' :: phrase ["RELEASE", "SAVEPOINT", savepointName depth]] := by
    rw [String.toList_append, String.toList_append, toList_rollbackTo, ← toList_release,
      String.toList_append, List.intercalate_cons_cons, List.intercalate_singleton]
    simp
  have whole : ∀ l ∈ [phrase ["ROLLBACK", "TO", "SAVEPOINT", savepointName depth],
      ' ' :: phrase ["RELEASE", "SAVEPOINT", savepointName depth]], ';' ∉ l := by
    intro l hl
    simp only [List.mem_cons, List.not_mem_nil, or_false] at hl
    rcases hl with rfl | rfl
    · exact semicolon_not_mem_phrase (words_rollbackTo depth)
    · intro hm
      rcases List.mem_cons.mp hm with hm | hm
      · exact absurd hm (by decide)
      · exact semicolon_not_mem_phrase (words_release depth) hm
  rw [controls?, parts, List.splitOn_intercalate _ whole (List.cons_ne_nil _ _), List.map_cons,
    List.map_singleton, words_space, words_phrase (words_rollbackTo depth) (List.cons_ne_nil _ _),
    words_phrase (words_release depth) (List.cons_ne_nil _ _)]
  rfl

end Named

/-- The server reads every command as what it stands for. -/
theorem controls?_sql (c : ScopeCommand) : controls? c.sql = some c.controls := by
  obtain ⟨action, depth⟩ := c
  by_cases hd : depth ≤ 1
  · rw [sql, controls, if_pos hd, if_pos hd]
    cases action with
    | begin => exact (by decide : controls? "BEGIN" = some [.begin])
    | commit => exact (by decide : controls? "COMMIT" = some [.commit])
    | rollback => exact (by decide : controls? "ROLLBACK" = some [.rollback])
    | discard => exact (by decide : controls? "ROLLBACK" = some [.rollback])
  · rw [sql, controls, if_neg hd, if_neg hd]
    cases action with
    | begin =>
      rw [controls?_phrase (toList_savepoint depth) (words_savepoint depth) (List.cons_ne_nil _ _)]
      rfl
    | commit =>
      rw [controls?_phrase (toList_release depth) (words_release depth) (List.cons_ne_nil _ _)]
      rfl
    | rollback =>
      rw [controls?_phrase (toList_rollbackTo depth) (words_rollbackTo depth)
        (List.cons_ne_nil _ _)]
      rfl
    | discard => exact controls?_discard depth

theorem runCommand_eq (c : ScopeCommand) (b : Books) :
    runCommand c b = runControls c.controls b := by
  rw [runCommand, controls?_sql]

end Ledger

end SqlClient
