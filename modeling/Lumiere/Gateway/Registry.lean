/-
The two maps of `SessionManager` (`lumiere-gateway/src/session.rs`) as a value, with the sender of each session. Every
function but `register` and `remove` is one access to one map, which is atomic; `register` and `remove` are the same
accesses in sequence.
-/
import Mathlib.Logic.Function.Basic
import Mathlib.Data.List.Count

namespace Lumiere.Gateway

/-- a session and the connection whose channel its `sender` feeds -/
structure Session (σ U κ : Type) where
  sessionId : σ
  userId : U
  sender : κ
deriving DecidableEq, Repr

structure Registry (σ U κ : Type) where
  sessions : σ → Option (Session σ U κ)
  userSessions : U → Option (List σ)

namespace Registry

variable {σ U κ : Type} [DecidableEq σ] [DecidableEq U] (r : Registry σ U κ) (x : Session σ U κ) (u v : U) (id id' : σ)

/-- the session ids listed for a user, none where the user has no entry -/
def listed : List σ := (r.userSessions u).getD []

def insert : Registry σ U κ := { r with sessions := Function.update r.sessions x.sessionId (some x) }

/-- `entry(u).or_default().push(id)` -/
def push : Registry σ U κ := { r with userSessions := Function.update r.userSessions u (some (r.listed u ++ [id])) }

def register : Registry σ U κ := (r.insert x).push x.userId x.sessionId

def take : Registry σ U κ := { r with sessions := Function.update r.sessions id none }

/-- `retain` on the list of the user, if it has one -/
def retain : Registry σ U κ :=
  match r.userSessions u with
  | some l => { r with userSessions := Function.update r.userSessions u (some (l.filter (· ≠ id))) }
  | none => r

def unlist : Registry σ U κ := { r with userSessions := Function.update r.userSessions u none }

def remove : Registry σ U κ :=
  match r.sessions id with
  | some x =>
    let r := (r.take id).retain x.userId id
    if r.userSessions x.userId = some [] then r.unlist x.userId else r
  | none => r

/-! ## What each access changes -/

omit [DecidableEq U] in
@[simp] theorem insert_sessions : (r.insert x).sessions id = if id = x.sessionId then some x else r.sessions id :=
  Function.update_apply ..

omit [DecidableEq U] in
@[simp] theorem listed_insert : (r.insert x).listed u = r.listed u := rfl

omit [DecidableEq σ] in
@[simp] theorem push_sessions : (r.push u id).sessions = r.sessions := rfl

omit [DecidableEq σ] in
@[simp] theorem listed_push : (r.push u id).listed v = if v = u then r.listed u ++ [id] else r.listed v := by
  simp only [listed, push, Function.update_apply]
  split_ifs <;> rfl

omit [DecidableEq U] in
@[simp] theorem take_sessions : (r.take id).sessions id' = if id' = id then none else r.sessions id' :=
  Function.update_apply ..

omit [DecidableEq U] in
@[simp] theorem listed_take : (r.take id).listed u = r.listed u := rfl

@[simp] theorem retain_sessions : (r.retain u id).sessions = r.sessions := by
  rw [retain]
  split <;> rfl

@[simp] theorem listed_retain :
    (r.retain u id).listed v = if v = u then (r.listed u).filter (· ≠ id) else r.listed v := by
  rw [retain]
  split
  · next l hl =>
    simp only [listed, Function.update_apply]
    split_ifs <;> simp [hl]
  · next hl =>
    split_ifs with hv
    · simp [listed, hv, hl]
    · rfl

omit [DecidableEq σ] in
@[simp] theorem unlist_sessions : (r.unlist u).sessions = r.sessions := rfl

omit [DecidableEq σ] in
@[simp] theorem listed_unlist : (r.unlist u).listed v = if v = u then [] else r.listed v := by
  simp only [listed, unlist, Function.update_apply]
  split_ifs <;> rfl

theorem register_sessions : (r.register x).sessions id = if id = x.sessionId then some x else r.sessions id := by
  rw [register, push_sessions, insert_sessions]

theorem remove_sessions : (r.remove id).sessions id' = if id' = id then none else r.sessions id' := by
  rw [remove]
  split
  · dsimp only
    split_ifs <;> simp_all
  · next h =>
    split_ifs with heq
    · rw [heq, h]
    · rfl

end Registry

end Lumiere.Gateway
