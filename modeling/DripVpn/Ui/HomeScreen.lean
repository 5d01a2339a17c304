import DripVpn.Ui.Event
import Mathlib.Data.List.Chain

/-!
# The home screen

The listener that `_HomeScreenState` puts on `vpnStatusPod`: it shows a `LoadingDialog` while the
status is executing. What is on the screen is a stack of routes; the dialog is a route of its own,
pushed by `showDialog` and popped by `context.pop`.

The listener remembers with one flag that it is showing a dialog, but pushes another one whenever
the status changes to an executing one. `shown_iff` says which sequences of statuses keep the
screen right: those in which no executing status is followed by a different executing status.
-/

/-- `VpnStatusExt.isExecuting`. -/
def VpnStatus.isExecuting (status : VpnStatus) : Bool :=
  status = .stopping || status = .connecting || status = .switching

/-- A route of the navigator. -/
inductive Route where
  | homeScreen
  | loadingDialog
  deriving DecidableEq, Repr

/-- The status that `VpnStatusNotifier` holds, the state of the home screen and the navigator. -/
structure HomeScreen where
  status : VpnStatus
  isShowingLoadingDialog : Bool
  /-- The routes of the navigator, the topmost first. -/
  routes : List Route
  /-- The routes that the listener popped. -/
  popped : List Route
  deriving DecidableEq

namespace HomeScreen

/-- The home screen after `initState`. -/
def init : HomeScreen where
  status := .idle
  isShowingLoadingDialog := false
  routes := [.homeScreen]
  popped := []

/-- `LoadingDialog.show`. -/
def showLoadingDialog (s : HomeScreen) : HomeScreen :=
  { s with routes := .loadingDialog :: s.routes }

/-- `context.pop`. -/
def pop (s : HomeScreen) : HomeScreen :=
  { s with routes := s.routes.tail, popped := s.popped ++ s.routes.head?.toList }

/-- The listener of `initState`. -/
def listener (s : HomeScreen) (next : VpnStatus) : HomeScreen :=
  if next.isExecuting then { s.showLoadingDialog with isShowingLoadingDialog := true }
  else if s.isShowingLoadingDialog then { s.pop with isShowingLoadingDialog := false }
  else s

/-- `VpnStatusNotifier.change`: listeners hear of a new status only. -/
def change (s : HomeScreen) (newStatus : VpnStatus) : HomeScreen :=
  if s.status ≠ newStatus then { s with status := newStatus }.listener newStatus else s

/-- A sequence of statuses. -/
def run (s : HomeScreen) (statuses : List VpnStatus) : HomeScreen := statuses.foldl change s

/-- The screen is right: one dialog while the status is executing and none otherwise, and only
dialogs were popped. -/
structure Shown (s : HomeScreen) : Prop where
  dialogs : s.routes.count .loadingDialog = if s.status.isExecuting then 1 else 0
  popped : ∀ route ∈ s.popped, route = .loadingDialog

/-! ## One status -/

/-- The state of the listener after any sequence of statuses, with `dialogs` on the screen. -/
structure Listening (s : HomeScreen) (dialogs : ℕ) : Prop where
  routes : s.routes = List.replicate dialogs .loadingDialog ++ [.homeScreen]
  flag : s.isShowingLoadingDialog = s.status.isExecuting
  pos : s.status.isExecuting = true → 0 < dialogs
  popped : ∀ route ∈ s.popped, route = .loadingDialog

theorem listening_init : Listening init 0 := by
  refine ⟨rfl, rfl, ?_, ?_⟩
  · intro h
    cases h
  · intro route hroute
    cases hroute

variable {s : HomeScreen} {dialogs : ℕ}

theorem Listening.shown_iff_dialogs (h : Listening s dialogs) :
    Shown s ↔ dialogs = if s.status.isExecuting then 1 else 0 := by
  have hcount : s.routes.count .loadingDialog = dialogs := by
    rw [h.routes, List.count_append, List.count_replicate_self]
    rfl
  constructor
  · intro hshown
    rw [← hcount]
    exact hshown.dialogs
  · intro hdialogs
    exact ⟨hcount.trans hdialogs, h.popped⟩

theorem status_change (s : HomeScreen) (v : VpnStatus) : (s.change v).status = v := by
  unfold change
  split
  · unfold listener
    split
    · rfl
    · split
      · rfl
      · rfl
  next hsame => exact not_not.mp hsame

/-- The dialogs after one more status. -/
def nextDialogs (s : HomeScreen) (v : VpnStatus) (dialogs : ℕ) : ℕ :=
  if s.status = v then dialogs
  else if v.isExecuting then dialogs + 1
  else if s.status.isExecuting then dialogs - 1
  else dialogs

theorem Listening.change (h : Listening s dialogs) (v : VpnStatus) :
    Listening (s.change v) (nextDialogs s v dialogs) := by
  by_cases hsame : s.status = v
  · rw [HomeScreen.change, if_neg (not_not.mpr hsame), nextDialogs, if_pos hsame]
    exact h
  · rw [HomeScreen.change, if_pos hsame, nextDialogs, if_neg hsame, listener]
    by_cases hv : v.isExecuting = true
    · rw [if_pos hv, if_pos hv]
      refine ⟨?_, hv.symm, fun _ => Nat.succ_pos _, h.popped⟩
      show Route.loadingDialog :: s.routes = _
      rw [h.routes, List.replicate_succ]
      rfl
    · rw [if_neg hv, if_neg hv]
      have hnot : v.isExecuting = false := by simpa using hv
      show Listening (if s.isShowingLoadingDialog = true then _ else _) _
      rw [h.flag]
      by_cases hs : s.status.isExecuting = true
      · -- the topmost route is a dialog
        obtain ⟨n, rfl⟩ := Nat.exists_eq_succ_of_ne_zero (Nat.pos_iff_ne_zero.mp (h.pos hs))
        have hroutes : s.routes =
            .loadingDialog :: (List.replicate n .loadingDialog ++ [.homeScreen]) := by
          rw [h.routes, List.replicate_succ]
          rfl
        rw [if_pos hs, if_pos hs]
        refine ⟨?_, hnot.symm, fun hexec => absurd hexec hv, ?_⟩
        · show s.routes.tail = _
          rw [hroutes]
          rfl
        · intro route hroute
          replace hroute : route ∈ s.popped ++ s.routes.head?.toList := hroute
          rw [hroutes, List.mem_append] at hroute
          rcases hroute with hroute | hroute
          · exact h.popped route hroute
          · exact List.mem_singleton.mp hroute
      · rw [if_neg hs, if_neg hs]
        refine ⟨h.routes, ?_, fun hexec => absurd hexec hv, h.popped⟩
        show s.status.isExecuting = v.isExecuting
        rw [hnot]
        simpa using hs

/-- A status may follow another if they are not two different executing ones. -/
def Follows (status next : VpnStatus) : Prop :=
  status.isExecuting = true → next.isExecuting = true → status = next

/-- From a right screen, the next status leaves it right exactly if it may follow. -/
theorem Listening.shown_change_iff (h : Listening s dialogs) (hshown : Shown s) (v : VpnStatus) :
    Shown (s.change v) ↔ Follows s.status v := by
  have hdialogs := h.shown_iff_dialogs.mp hshown
  rw [(h.change v).shown_iff_dialogs, status_change, nextDialogs, hdialogs, Follows]
  by_cases hsame : s.status = v
  · simp [hsame]
  · by_cases hv : v.isExecuting = true
    · by_cases hs : s.status.isExecuting = true
      · simp [hsame, hv, hs]
      · simp [hsame, hv, hs]
    · by_cases hs : s.status.isExecuting = true
      · simp [hsame, hv, hs]
      · simp [hsame, hv, hs]

/-! ## Sequences of statuses -/

theorem Listening.shown_run_iff (h : Listening s dialogs) (hshown : Shown s)
    (statuses : List VpnStatus) :
    (∀ n, Shown (s.run (statuses.take n))) ↔ List.IsChain Follows (s.status :: statuses) := by
  induction statuses generalizing s dialogs with
  | nil =>
    constructor
    · exact fun _ => List.isChain_singleton s.status
    · intro _ n
      rw [List.take_nil]
      exact hshown
  | cons v statuses ih =>
    rw [List.isChain_cons_cons, ← h.shown_change_iff hshown v]
    constructor
    · intro hall
      have hfirst : Shown (s.change v) := hall 1
      refine ⟨hfirst, ?_⟩
      have hrest := (ih (h.change v) hfirst).mp fun n => hall (n + 1)
      rwa [status_change] at hrest
    · rintro ⟨hfirst, hrest⟩ n
      cases n with
      | zero => exact hshown
      | succ n =>
        rw [← status_change s v] at hrest
        exact (ih (h.change v) hfirst).mpr hrest n

/-- **Loading dialog.** After each of a sequence of statuses the screen is right exactly if no
executing status is followed by a different executing one. -/
theorem shown_iff (statuses : List VpnStatus) :
    (∀ n, Shown (init.run (statuses.take n))) ↔ List.IsChain Follows (.idle :: statuses) :=
  listening_init.shown_run_iff (listening_init.shown_iff_dialogs.mpr rfl) statuses

/-- The listener pops dialogs only, whatever the statuses. -/
theorem popped_run (statuses : List VpnStatus) :
    ∀ route ∈ (init.run statuses).popped, route = .loadingDialog := by
  suffices hall : ∀ s dialogs, Listening s dialogs → ∃ n, Listening (s.run statuses) n by
    obtain ⟨n, hn⟩ := hall init 0 listening_init
    exact hn.popped
  induction statuses with
  | nil => exact fun s dialogs h => ⟨dialogs, h⟩
  | cons v statuses ih => exact fun s dialogs h => ih _ _ (h.change v)

/-- A connection that is stopped while it is made leaves a dialog behind. -/
theorem dialog_left_behind :
    (init.run [.connecting, .stopping]).routes = [.loadingDialog, .loadingDialog, .homeScreen] ∧
      (init.run [.connecting, .stopping, .stopped]).routes = [.loadingDialog, .homeScreen] ∧
        ¬ Shown (init.run [.connecting, .stopping]) ∧
          ¬ Shown (init.run [.connecting, .stopping, .stopped]) := by
  refine ⟨by decide, by decide, fun h => ?_, fun h => ?_⟩
  · exact absurd h.dialogs (by decide)
  · exact absurd h.dialogs (by decide)

end HomeScreen
