import Spaznet.Lib.Machine
import Mathlib.Logic.Function.Basic

/-!
# The poll backend

`PlatformIOPoll` keeps the interest set in two tables, the array for `poll` and the token of each
descriptor. `wait` copies the array under the lock, polls without it and takes the lock again to
look up the tokens. What the other threads do in between is a list of operations; what `poll`
reports is a matter of the kernel. A descriptor is its 32-bit pattern. The array has one entry for a
descriptor, so that the loops that stop at the first are a `map` and a `filter`.
-/

namespace Spaznet.Platform

open Function

abbrev Fd := UInt32

structure Events where
  read : Bool := false
  write : Bool := false
  deriving DecidableEq

structure Pollfd where
  fd : Fd
  events : Events
  deriving DecidableEq

structure Revents where
  pollin : Bool := false
  pollout : Bool := false
  pollerr : Bool := false
  pollhup : Bool := false
  pollnval : Bool := false
  deriving DecidableEq

structure Event where
  fd : Fd
  events : Events
  error : Bool := false
  userData : Nat
  deriving DecidableEq

structure PlatformIOPoll where
  pollfds : List Pollfd := []
  fdInfo : Fd → Option (Nat × Events) := fun _ => none

namespace PlatformIOPoll

def addFd (fd : Fd) (events : Events) (userData : Nat) (p : PlatformIOPoll) : PlatformIOPoll :=
  if (p.fdInfo fd).isSome then p
  else { pollfds := p.pollfds ++ [⟨fd, events⟩]
         fdInfo := update p.fdInfo fd (some (userData, events)) }

def modifyFd (fd : Fd) (events : Events) (userData : Nat) (p : PlatformIOPoll) : PlatformIOPoll :=
  if (p.fdInfo fd).isSome then
    { pollfds := p.pollfds.map fun pfd => if pfd.fd = fd then ⟨fd, events⟩ else pfd
      fdInfo := update p.fdInfo fd (some (userData, events)) }
  else p.addFd fd events userData

def removeFd (fd : Fd) (p : PlatformIOPoll) : PlatformIOPoll :=
  { pollfds := p.pollfds.filter (·.fd ≠ fd), fdInfo := update p.fdInfo fd none }

inductive Op where
  | add (fd : Fd) (events : Events) (userData : Nat)
  | modify (fd : Fd) (events : Events) (userData : Nat)
  | remove (fd : Fd)
  deriving DecidableEq

def step (p : PlatformIOPoll) : Op → PlatformIOPoll
  | .add fd events userData => p.addFd fd events userData
  | .modify fd events userData => p.modifyFd fd events userData
  | .remove fd => p.removeFd fd

def run (p : PlatformIOPoll) (ops : List Op) : PlatformIOPoll := Machine.run step p ops

def token? (p : PlatformIOPoll) (fd : Fd) : Option Nat := (p.fdInfo fd).map Prod.fst

/-- The event that the second lock section makes of an entry of the snapshot. -/
def toEvent? (p : PlatformIOPoll) (pfd : Pollfd) (revents : Revents) : Option Event :=
  if revents = {} then none
  else (p.token? pfd.fd).map fun token =>
    { fd := pfd.fd
      events := ⟨revents.pollin || revents.pollerr || revents.pollhup, revents.pollout⟩
      error := revents.pollerr || revents.pollhup || revents.pollnval
      userData := token }

/-- The events of one `wait`: `gap` falls between the snapshot and the lookup. A `poll` that fails
reports nothing. -/
def wait (p : PlatformIOPoll) (poll : Option (Pollfd → Revents)) (gap : List Op) : List Event :=
  match poll with
  | none => []
  | some revents => p.pollfds.filterMap fun pfd => (p.run gap).toEvent? pfd (revents pfd)

/-! ## Tokens across the gap -/

/-- What an operation does to the token of one descriptor. -/
def Op.retoken (fd : Fd) (token : Option Nat) : Op → Option Nat
  | .add fd' _ userData => if fd' = fd ∧ token = none then some userData else token
  | .modify fd' _ userData => if fd' = fd then some userData else token
  | .remove fd' => if fd' = fd then none else token

theorem token?_addFd (p : PlatformIOPoll) (fd fd' : Fd) (events : Events) (userData : Nat) :
    (p.addFd fd' events userData).token? fd =
      if fd' = fd ∧ p.token? fd = none then some userData else p.token? fd := by
  unfold addFd token?
  by_cases hfd : fd' = fd
  · subst hfd
    cases hinfo : p.fdInfo fd' <;> simp [hinfo]
  · split
    · simp [hfd]
    · simp [hfd, update_of_ne (Ne.symm hfd)]

theorem token?_step (p : PlatformIOPoll) (fd : Fd) (op : Op) :
    (step p op).token? fd = op.retoken fd (p.token? fd) := by
  cases op with
  | add fd' events userData => exact p.token?_addFd fd fd' events userData
  | modify fd' events userData =>
    simp only [step, modifyFd, Op.retoken]
    by_cases hfd : fd' = fd
    · subst hfd
      cases hinfo : p.fdInfo fd' <;> simp [hinfo, token?, addFd]
    split
    · simp [token?, update_of_ne (Ne.symm hfd), if_neg hfd]
    · rw [token?_addFd]
      simp [hfd]
  | remove fd' =>
    simp only [step, removeFd, Op.retoken, token?]
    by_cases hfd : fd' = fd
    · simp [hfd]
    · simp [hfd, update_of_ne (Ne.symm hfd)]

theorem token?_run (p : PlatformIOPoll) (fd : Fd) (ops : List Op) :
    (p.run ops).token? fd = ops.foldl (Op.retoken fd) (p.token? fd) := by
  induction ops generalizing p with
  | nil => rfl
  | cons op ops ih =>
    rw [run, Machine.run_cons, ← run, ih, token?_step]
    rfl

/-- The two tables list the same descriptors. -/
def Matches (p : PlatformIOPoll) : Prop := ∀ pfd ∈ p.pollfds, (p.token? pfd.fd).isSome

theorem Matches.step (h : p.Matches) (op : Op) : (step p op).Matches := by
  have hadd (fd : Fd) (events : Events) (userData : Nat) : (p.addFd fd events userData).Matches := by
    intro pfd hpfd
    rw [token?_addFd]
    split
    · rfl
    next hne =>
      unfold addFd at hpfd
      split at hpfd
      · exact h pfd hpfd
      next hnone =>
        rcases List.mem_append.mp hpfd with hold | hnew
        · exact h pfd hold
        cases List.mem_singleton.mp hnew
        simp [token?] at hne hnone
        exact absurd hnone hne
  cases op with
  | add fd events userData => exact hadd fd events userData
  | modify fd events userData =>
    simp only [PlatformIOPoll.step, modifyFd]
    split
    · intro pfd hpfd
      obtain ⟨old, hold, rfl⟩ := List.mem_map.mp hpfd
      by_cases hfd : old.fd = fd
      · simp [hfd, token?]
      · simpa [hfd, token?, update_of_ne hfd] using h old hold
    · exact hadd fd events userData
  | remove fd =>
    intro pfd hpfd
    obtain ⟨hold, hne⟩ := List.mem_filter.mp hpfd
    have hne : pfd.fd ≠ fd := by simpa using hne
    simpa [PlatformIOPoll.step, removeFd, token?, update_of_ne hne] using h pfd hold

theorem matches_run (ops : List Op) : (run {} ops).Matches := by
  refine Machine.run_induction (fun p op h => h.step op) (fun pfd hpfd => nomatch hpfd) ops

/-- The operations of the gap leave the descriptor with its token, or unregistered. -/
def Keeps (gap : List Op) (fd : Fd) (token : Nat) : Prop :=
  ∀ token' ∈ gap.foldl (Op.retoken fd) (some token), token' = token

/-- The events of a `wait` carry the tokens of the snapshot exactly if the operations that fall
between the snapshot and the lookup leave every ready descriptor with its token, or unregistered. -/
theorem wait_token_iff (before gap : List Op) (poll : Option (Pollfd → Revents)) :
    (∀ e ∈ (run {} before).wait poll gap, (run {} before).token? e.fd = some e.userData) ↔
      ∀ revents ∈ poll, ∀ pfd ∈ (run {} before).pollfds, revents pfd ≠ {} →
        ∀ token ∈ (run {} before).token? pfd.fd, Keeps gap pfd.fd token := by
  have hmatches := matches_run before
  generalize run {} before = p at hmatches ⊢
  cases poll with
  | none => simp [wait]
  | some revents =>
    constructor
    · intro h r hr pfd hpfd hready token htoken token' htoken'
      cases hr
      rw [← (htoken : p.token? pfd.fd = some token), ← token?_run] at htoken'
      have hlookup : (p.run gap).token? pfd.fd = some token' := htoken'
      have hmem := h _ (List.mem_filterMap.mpr ⟨pfd, hpfd, by
        rw [toEvent?, if_neg hready, hlookup]
        rfl⟩)
      exact (Option.some.inj (hmem.symm.trans htoken))
    · intro h e he
      obtain ⟨pfd, hpfd, hevent⟩ := List.mem_filterMap.mp he
      unfold toEvent? at hevent
      split at hevent
      · cases hevent
      next hready =>
        obtain ⟨token', hlookup, rfl⟩ := Option.map_eq_some_iff.mp hevent
        obtain ⟨token, htoken⟩ := Option.isSome_iff_exists.mp (hmatches pfd hpfd)
        rw [token?_run, htoken] at hlookup
        rw [h revents rfl pfd hpfd hready token htoken token' hlookup]
        exact htoken

/-- A descriptor is registered again while `poll` blocks. -/
theorem wait_reports_later_token :
    ¬ ∀ e ∈ (run {} [.add 5 ⟨true, false⟩ 1]).wait (some fun _ => { pollin := true })
        [.modify 5 ⟨true, false⟩ 2],
      (run {} [.add 5 ⟨true, false⟩ 1]).token? e.fd = some e.userData := by
  decide

end PlatformIOPoll

end Spaznet.Platform
