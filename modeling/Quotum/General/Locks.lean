import Mathlib

/-! Sessions that run statements on one store, each under the locks it holds, in any order. What a session knows of the rows
it has locked holds until it lets them go. -/

namespace Quotum.General

structure Served (Store Session : Type) where
  store : Store
  sessions : List Session
  deriving DecidableEq

section Locks
variable {Store Session Lock : Type} [DecidableEq Lock] (locks : Session → List Lock)

/-- Whether no session but the one at an index holds any of the locks. -/
def freeFor (index : Nat) (wanted : List Lock) (sessions : List Session) : Bool :=
  sessions.zipIdx.all fun entry => entry.2 == index || (locks entry.1).all fun lock => !wanted.contains lock

variable {locks}

theorem freeFor_apart {index : Nat} {wanted : List Lock} {sessions : List Session} (free : freeFor locks index wanted sessions = true)
    {other : Nat} {session : Session} (found : sessions[other]? = some session) (apart : other ≠ index) {lock : Lock}
    (holds : lock ∈ locks session) : lock ∉ wanted := by
  have entry : (session, other) ∈ sessions.zipIdx := by
    rw [List.mem_zipIdx_iff_getElem?]
    exact found
  have each := List.all_eq_true.mp free _ entry
  simp only [Bool.or_eq_true, beq_iff_eq, List.all_eq_true, Bool.not_eq_true'] at each
  rcases each with same | none
  · exact absurd same apart
  · simpa using none lock holds

theorem freeFor_iff {index : Nat} {wanted : List Lock} {sessions : List Session} : freeFor locks index wanted sessions = true ↔
    ∀ (other : Nat) (session : Session), sessions[other]? = some session → other ≠ index → ∀ lock ∈ locks session, lock ∉ wanted := by
  refine ⟨fun free other session found apart lock holds => freeFor_apart free found apart holds, ?_⟩
  intro apart
  apply List.all_eq_true.mpr
  rintro ⟨session, other⟩ entry
  have found := List.mem_zipIdx_iff_getElem?.mp entry
  by_cases same : other = index
  · simp [same]
  · simpa [same] using apart other session found same

/-- The locks of the session begun last do not keep it waiting. -/
theorem freeFor_last {wanted fewer : List Lock} {sessions : List Session} (free : freeFor locks sessions.length wanted sessions = true)
    (less : fewer ⊆ wanted) (own : Session) : freeFor locks sessions.length fewer (sessions ++ [own]) = true := by
  apply freeFor_iff.mpr
  intro other session found apart lock holds asked
  have inside : other < sessions.length := by
    have := (List.getElem?_eq_some_iff.mp found).1
    rw [List.length_append, List.length_singleton] at this
    omega
  rw [List.getElem?_append_left inside] at found
  exact freeFor_apart free found apart holds (less asked)

/-- The rules that a store's statements keep: what is true of every store, what a session knows, and what the holder of
some locks may change. -/
structure Discipline (Store Session Lock : Type) where
  locks : Session → List Lock
  valid : Store → Prop
  knows : Store → Session → Prop
  changes : (Lock → Prop) → Store → Store → Prop
  stable : ∀ {holder : Lock → Prop} {before after : Store} {session : Session}, changes holder before after →
    knows before session → (∀ lock ∈ locks session, ¬ holder lock) → knows after session

namespace Discipline
variable (rules : Discipline Store Session Lock)

/-- The store is valid, every session is right in what it knows, and no lock is held twice. -/
structure Kept (served : Served Store Session) : Prop where
  valid : rules.valid served.store
  knows : ∀ session ∈ served.sessions, rules.knows served.store session
  once : ∀ (first second : Nat) (one two : Session), served.sessions[first]? = some one → served.sessions[second]? = some two → first ≠ second →
    ∀ lock ∈ rules.locks one, lock ∉ rules.locks two

structure Statement (wanted : List Lock) (before : Store) (session : Session) (after : Store) (next : Session) : Prop where
  valid : rules.valid after
  knows : rules.knows after next
  changes : rules.changes (fun lock => lock ∈ rules.locks session ∨ lock ∈ wanted) before after
  locks : ∀ lock ∈ rules.locks next, lock ∈ rules.locks session ∨ lock ∈ wanted

variable {rules} {served : Served Store Session}

theorem Kept.statement (kept : rules.Kept served) {index : Nat} {session : Session} (found : served.sessions[index]? = some session)
    {wanted : List Lock} (free : freeFor rules.locks index wanted served.sessions = true) {after : Store} {next : Session}
    (statement : rules.Statement wanted served.store session after next) :
    rules.Kept ⟨after, served.sessions.set index next⟩ where
  valid := statement.valid
  knows := by
    intro other member
    obtain ⟨position, there⟩ := List.mem_iff_getElem?.mp member
    by_cases same : position = index
    · subst same
      rw [List.getElem?_set_self (List.getElem?_eq_some_iff.mp found).1] at there
      obtain rfl := Option.some.inj there
      exact statement.knows
    · rw [List.getElem?_set_ne (Ne.symm same)] at there
      apply rules.stable statement.changes (kept.knows other (List.mem_of_getElem? there))
      rintro lock holds (own | taken)
      · exact kept.once index position session other found there (Ne.symm same) lock own holds
      · exact freeFor_apart free there same holds taken
  once := by
    intro first second one two here there apart lock holds again
    have moved {position : Nat} {held : Session} (at_ : (served.sessions.set index next)[position]? = some held) :
        position = index ∧ held = next ∨ position ≠ index ∧ served.sessions[position]? = some held := by
      by_cases same : position = index
      · subst same
        rw [List.getElem?_set_self (List.getElem?_eq_some_iff.mp found).1] at at_
        exact .inl ⟨rfl, (Option.some.inj at_).symm⟩
      · rw [List.getElem?_set_ne (Ne.symm same)] at at_
        exact .inr ⟨same, at_⟩
    rcases moved here with ⟨rfl, rfl⟩ | ⟨oneApart, oneFound⟩
    · rcases moved there with ⟨rfl, -⟩ | ⟨twoApart, twoFound⟩
      · exact apart rfl
      · rcases statement.locks lock holds with own | taken
        · exact kept.once _ second session two found twoFound apart lock own again
        · exact freeFor_apart free twoFound twoApart again taken
    · rcases moved there with ⟨rfl, rfl⟩ | ⟨twoApart, twoFound⟩
      · rcases statement.locks lock again with own | taken
        · exact kept.once first _ one session oneFound found oneApart lock holds own
        · exact freeFor_apart free oneFound oneApart holds taken
      · exact kept.once first second one two oneFound twoFound apart lock holds again

/-- A statement of no session, which holds its locks only while it runs. -/
theorem Kept.alone (kept : rules.Kept served) {wanted : List Lock} (free : freeFor rules.locks served.sessions.length wanted served.sessions = true)
    {after : Store} (valid : rules.valid after) (changes : rules.changes (· ∈ wanted) served.store after) :
    rules.Kept ⟨after, served.sessions⟩ where
  valid := valid
  knows := by
    intro session member
    obtain ⟨position, found⟩ := List.mem_iff_getElem?.mp member
    have inside : position < served.sessions.length := (List.getElem?_eq_some_iff.mp found).1
    exact rules.stable changes (kept.knows session member) fun lock holds => freeFor_apart free found (by omega) holds
  once := kept.once

omit [DecidableEq Lock] in
/-- A session that starts without a lock. -/
theorem Kept.begun (kept : rules.Kept served) {session : Session} (unlocked : rules.locks session = [])
    (knows : rules.knows served.store session) : rules.Kept ⟨served.store, served.sessions ++ [session]⟩ where
  valid := kept.valid
  knows := by
    intro other member
    rcases List.mem_append.mp member with old | new
    · exact kept.knows other old
    · exact List.mem_singleton.mp new ▸ knows
  once := by
    intro first second one two here there apart lock holds again
    have stands {position : Nat} {held : Session} (at_ : (served.sessions ++ [session])[position]? = some held)
        (locked : lock ∈ rules.locks held) : served.sessions[position]? = some held := by
      rw [List.getElem?_append] at at_
      split at at_
      · exact at_
      · have last := List.mem_of_getElem? at_
        rw [List.mem_singleton.mp last, unlocked] at locked
        cases locked
    exact kept.once first second one two (stands here holds) (stands there again) apart lock holds again

end Discipline

end Locks

end Quotum.General
