import SqlClient.Driver.Basic
import SqlClient.Proofs.Action
/-!
# Runs over a driver

A program makes one call after the other, on the driver itself and on the handles it holds, in any
order. A handle is used up by a commit, by a rollback, and by being dropped; a call that is dropped
on the way is one whose reply is lost. Of the server it is known only when it is inside a
transaction.
-/
namespace SqlClient

open SqlClient.Sql

variable {σ η β : Type}

inductive Call (η : Type) where
  | execute (scope : Option η) (st : Statement)
  | begin (scope : Option η)
  | commit (scope : η)
  | rollback (scope : η)
  | drop (scope : η)

structure Usage (σ η : Type) where
  progress : Progress σ
  live : List η

def Usage.new (s : σ) : Usage σ η := ⟨.new s, []⟩

namespace Call

def handle? : Call η → Option η
  | .execute scope _ => scope
  | .begin scope => scope
  | .commit scope => some scope
  | .rollback scope => some scope
  | .drop scope => some scope

def statement? : Call η → Option Statement
  | .execute _ st => some st
  | _ => none

/-- A call that can be made: on a handle that is held, with a text that is plain. -/
structure Legal (plain : String → Prop) (live : List η) (c : Call η) : Prop where
  held : ∀ scope ∈ c.handle?, scope ∈ live
  plain : ∀ st ∈ c.statement?, plain st.text

end Call

def Driver.perform [DecidableEq η] (d : Driver σ η) (u : Usage σ η) : Call η → Usage σ η
  | .execute scope st => ⟨((d.execute scope st).run u.progress).2, u.live⟩
  | .begin scope =>
    let result := (d.begin scope).run u.progress
    ⟨result.2, result.1.toOption.toList ++ u.live⟩
  | .commit scope => ⟨((d.commit scope).run u.progress).2, u.live.erase scope⟩
  | .rollback scope => ⟨((d.rollback scope).run u.progress).2, u.live.erase scope⟩
  | .drop scope => ⟨d.drop scope u.progress, u.live.erase scope⟩

/-- What a program over a driver comes to. Between two calls there may be other steps. -/
inductive Driver.Reaches [DecidableEq η] (d : Driver σ η) (plain : String → Prop)
    (between : Usage σ η → Usage σ η → Prop) (start : σ) : Usage σ η → Prop where
  | start (p : Progress σ) : p.state = start → d.Reaches plain between start ⟨p, []⟩
  | call {u : Usage σ η} {c : Call η} : d.Reaches plain between start u → c.Legal plain u.live →
      d.Reaches plain between start (d.perform u c)
  | between {u v : Usage σ η} : d.Reaches plain between start u → between u v →
      d.Reaches plain between start v

/-- What is known of a server. `inside b n` says that connection `n` is open and in the middle of a
transaction: only a `BEGIN` that succeeds can bring that about, on its own connection, as long as no
other text but plain ones are executed, and every `COMMIT` and `ROLLBACK` is the end of it, be it
that the server refused the request or could not be reached any more. -/
structure Server.Transactional (server : Server β) (inside : β → Nat → Prop)
    (plain : String → Prop) : Prop where
  connect : ∀ n m b, inside (server.connect n b).2 m → m ≠ n ∧ inside b m
  prepare : ∀ n m text b, inside (server.prepare n text b).2 m → inside b m
  execute : ∀ n m text params b, plain text → inside (server.execute n text params b).2 m →
    inside b m
  batch : ∀ n m c b, inside (server.batch n c b).2 m →
    inside b m ∨ m = n ∧ c.sql = "BEGIN" ∧ ∀ e, (server.batch n c b).1 ≠ .refused e
  ends : ∀ n c b, c.sql = "COMMIT" ∨ c.sql = "ROLLBACK" → ¬ inside (server.batch n c b).2 n

namespace ScopeCommand

theorem sql_begin_iff {c : ScopeCommand} : c.sql = "BEGIN" ↔ c.action = .begin ∧ c.depth ≤ 1 := by
  obtain ⟨action, depth⟩ := c
  by_cases h : depth ≤ 1
  · cases action <;> simp [sql, h]
  · -- The commands of savepoints start with other letters.
    have other : (sql ⟨action, depth⟩).toList.head? ≠ "BEGIN".toList.head? := by
      cases action <;> simp [sql, h]
    simp only [h, and_false, iff_false]
    exact fun text => other (congrArg (fun s => s.toList.head?) text)

end ScopeCommand

namespace Server.Transactional

variable {server : Server β} {inside : β → Nat → Prop} {plain : String → Prop}

/-- Anything but the beginning of a transaction opens none. -/
theorem batch_opens_none (h : server.Transactional inside plain) {n m : Nat} {c : ScopeCommand}
    {b : β} (hc : c.action ≠ .begin ∨ 1 < c.depth) (hm : inside (server.batch n c b).2 m) :
    inside b m := by
  rcases h.batch n m c b hm with before | ⟨-, text, -⟩
  · exact before
  · obtain ⟨begins, outermost⟩ := ScopeCommand.sql_begin_iff.mp text
    rcases hc with hc | hc
    · exact absurd begins hc
    · omega

theorem not_inside_of_refused (h : server.Transactional inside plain) {n m : Nat} {c : ScopeCommand}
    {b : β} {e : ServerError} (refused : (server.batch n c b).1 = .refused e)
    (hm : inside (server.batch n c b).2 m) : inside b m := by
  rcases h.batch n m c b hm with before | ⟨-, -, answered⟩
  · exact before
  · exact absurd refused (answered e)

/-- The command that ends the outermost scope does so. -/
theorem not_inside_of_ends (h : server.Transactional inside plain) {n depth : Nat} {b : β}
    {action : ScopeAction} (ha : action ≠ .begin) (hd : depth ≤ 1) :
    ¬ inside (server.batch n ⟨action, depth⟩ b).2 n := by
  apply h.ends
  cases action with
  | begin => exact absurd rfl ha
  | commit => exact .inl (if_pos hd)
  | rollback => exact .inr (if_pos hd)
  | discard => exact .inr (if_pos hd)

end Server.Transactional

namespace Server

/-- A server that keeps the connections that are inside a transaction. It does as it is told, but
the reply to every `COMMIT` is lost. -/
def losingCommits : Server (List Nat) where
  connect n b := (.ok (), b.filter (· ≠ n))
  prepare _ _ b := (.answered ⟨[], []⟩, b)
  execute n text _ b := (.answered [], if text = "BEGIN" then n :: b else b)
  batch n c b :=
    if c.sql = "BEGIN" then (.answered (), n :: b)
    else if c.sql = "COMMIT" then (.unanswered 1, b.filter (· ≠ n))
    else if c.sql = "ROLLBACK" then (.answered (), b.filter (· ≠ n))
    else (.answered (), b)

theorem transactional_losingCommits :
    losingCommits.Transactional (fun b n => n ∈ b) (· ≠ "BEGIN") where
  connect n m b hm := by
    obtain ⟨before, other⟩ := List.mem_filter.mp hm
    exact ⟨of_decide_eq_true other, before⟩
  prepare n m text b hm := hm
  execute n m text params b plain hm := by
    simpa only [losingCommits, if_neg plain] using hm
  batch n m c b hm := by
    simp only [losingCommits] at hm ⊢
    split at hm
    · rename_i text
      rcases List.mem_cons.mp hm with rfl | before
      · exact .inr ⟨rfl, text, by rw [if_pos text]; nofun⟩
      · exact .inl before
    · split at hm
      · exact .inl ((List.mem_filter.mp hm).1)
      · split at hm
        · exact .inl ((List.mem_filter.mp hm).1)
        · exact .inl hm
  ends n c b text := by
    rcases text with text | text <;> simp [losingCommits, text]

end Server

end SqlClient
