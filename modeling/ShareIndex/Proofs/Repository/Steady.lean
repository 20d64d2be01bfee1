import ShareIndex.Repository.Counters
import ShareIndex.Proofs.Repository.Reply

/-!
# ShareIndex.Proofs.Repository.Steady

Calls that only read, on stores that may refuse requests.

* `Steady` — calls that change nothing, and that only fail otherwise than they do without faults if a request is refused.
* `Found`  — all downloads, or a failure after the first ones.
* `Finds`  — calls that find what they find without faults, or the first part of it.
* `allCounters_finds` — an enumeration of all counters is such a call.
-/

namespace ShareIndex
namespace Repository

open Share (DownloadCounters)
open Store (Backend Request)

/-! ### Reading -/

/-- A call that changes nothing. It answers as it does on a store without faults, or fails because a request is refused. -/
def Steady {α : Type} (x : Action α) : Prop :=
  ∀ {s s' : Shared Backend} {events : List Event} {result : Except Error α}, Runs x.run s events result s' →
    s' = s ∧ (x.perform s = (result, s) ∨ ∃ cause, result = .error (.store cause))

section Steadiness

variable {α β : Type}

theorem steady_pure (a : α) : Steady (pure a) := by
  intro s s' events result h
  obtain ⟨-, rfl, rfl⟩ := runs_pure h
  exact ⟨rfl, .inl rfl⟩

theorem steady_readHolder : Steady readHolder := by
  intro s s' events result h
  obtain ⟨-, rfl, rfl⟩ := runs_readHolder h
  exact ⟨rfl, .inl rfl⟩

theorem steady_request {r : Request} {key : String} (hr : r.reads? = some key) : Steady (request .store r) := by
  intro s s' events result h
  obtain ⟨answer, store, hreply, -, rfl, rfl⟩ := runs_request h
  obtain rfl : store = s.store := hreply.read hr
  refine ⟨rfl, ?_⟩
  cases answer with
  | ok a => exact .inl (perform_read hr (congrArg (·.1) hreply.of_ok))
  | error cause => exact .inr ⟨cause, rfl⟩

theorem steady_bind {x : Action α} {f : α → Action β} (hx : Steady x) (hf : ∀ a, Steady (f a)) : Steady (x >>= f) := by
  intro s s' events result h
  rcases runs_action h with ⟨e, rfl, h1⟩ | ⟨a, s1, before, after, rfl, h1, h2⟩
  · obtain ⟨rfl, hperform | ⟨cause, he⟩⟩ := hx h1
    · exact ⟨rfl, .inl (perform_bind_error hperform)⟩
    · exact ⟨rfl, .inr ⟨cause, congrArg Except.error (Except.error.inj he)⟩⟩
  · obtain ⟨rfl, hperform | ⟨cause, he⟩⟩ := hx h1
    · obtain ⟨rfl, hlater | hcause⟩ := hf a h2
      · exact ⟨rfl, .inl ((perform_bind hperform).trans hlater)⟩
      · exact ⟨rfl, .inr hcause⟩
    · cases he

theorem countersOf_steady (g : Generation) (id path : String) : Steady (countersOf g id path) := by
  refine steady_bind (steady_request rfl) fun files => steady_bind ?_ fun values => steady_pure _
  rw [counterValues]
  split
  · exact steady_pure []
  · exact steady_request rfl

end Steadiness

/-! ### Enumerations -/

/-- All downloads have been found, or a failure has come after the first ones. -/
def Found (listing : List DownloadCounters) (found : List DownloadCounters × Option Error) : Prop :=
  match found.2 with
  | none => found.1 = listing
  | some _ => found.1 <+: listing

/-- A call that changes nothing and finds what it finds without faults, or the first part of it and a failure. -/
def Finds (p : Program (List DownloadCounters × Option Error)) : Prop :=
  ∀ {s s' : Shared Backend} {events : List Event} {found : List DownloadCounters × Option Error}
    {listing : List DownloadCounters}, Runs p s events found s' → (p.run s).1 = (listing, none) →
    s' = s ∧ Found listing found

/-- A failure of the first part ends the enumeration. -/
def onward {α : Type} (x : Action α) (k : α → Program (List DownloadCounters × Option Error)) :
    Program (List DownloadCounters × Option Error) :=
  x.run.bind fun
    | .error e => .done ([], some e)
    | .ok a => k a

section Enumerations

variable {α : Type}

theorem finds_done (found : List DownloadCounters × Option Error) : Finds (.done found) := by
  intro s s' events found' listing h hfree
  obtain ⟨-, rfl, rfl⟩ := runs_done h
  obtain rfl : found' = (listing, none) := hfree
  exact ⟨rfl, rfl⟩

theorem finds_onward {x : Action α} (hx : Steady x) {k : α → Program (List DownloadCounters × Option Error)}
    (hk : ∀ a, Finds (k a)) : Finds (onward x k) := by
  intro s s' events found listing h hfree
  obtain ⟨result, s1, before, after, -, h1, h2⟩ := runs_bind h
  obtain ⟨rfl, hperform⟩ := hx h1
  cases result with
  | error e =>
    obtain ⟨-, rfl, rfl⟩ := runs_done h2
    exact ⟨rfl, List.nil_prefix⟩
  | ok a =>
    rcases hperform with hperform | ⟨cause, he⟩
    · have hperform : x.run.run s1 = (.ok a, s1) := hperform
      rw [onward, Program.run_bind, hperform] at hfree
      exact hk a h2 hfree
    · cases he

theorem finds_cons (first : DownloadCounters) {p : Program (List DownloadCounters × Option Error)} (hp : Finds p) :
    Finds (p.bind fun found => .done (first :: found.1, found.2)) := by
  intro s s' events found listing h hfree
  obtain ⟨later, s1, before, after, -, h1, h2⟩ := runs_bind h
  obtain ⟨-, rfl, rfl⟩ := runs_done h2
  rw [Program.run_bind] at hfree
  obtain ⟨hlisting, hnone⟩ := Prod.mk.inj (show (first :: (p.run s).1.1, (p.run s).1.2) = (listing, none) from hfree)
  obtain ⟨rfl, hfound⟩ := hp h1 (Prod.ext rfl hnone)
  refine ⟨rfl, ?_⟩
  rw [← hlisting]
  unfold Found at hfound ⊢
  split at hfound
  · simp only [‹later.2 = _›, hfound]
  · simp only [‹later.2 = _›]
    exact List.cons_prefix_cons.mpr ⟨rfl, hfound⟩

theorem countersOfEach_cons (g : Generation) (e : String × String) (rest : List (String × String)) :
    countersOfEach g (e :: rest) = onward (countersOf g e.1 e.2) fun first =>
      (countersOfEach g rest).bind fun found => .done (first :: found.1, found.2) :=
  congrArg (Program.bind (countersOf g e.1 e.2).run) (funext fun
    | .error _ => rfl
    | .ok _ => rfl)

theorem countersOfEach_finds (g : Generation) (entries : List (String × String)) : Finds (countersOfEach g entries) := by
  induction entries with
  | nil => exact finds_done _
  | cons e rest ih =>
    rw [countersOfEach_cons]
    exact finds_onward (countersOf_steady g e.1 e.2) fun first => finds_cons first ih

def downloadsCounters (g : Generation) : Program (List DownloadCounters × Option Error) :=
  onward (request .store (.getAll (Key.downloads g))) fun downloads => countersOfEach g downloads.entries

theorem downloadsCounters_finds (g : Generation) : Finds (downloadsCounters g) :=
  finds_onward (steady_request rfl) fun _ => countersOfEach_finds g _

theorem allCounters_eq : allCounters = onward readHolder fun active =>
    match active with
    | none => .done ([], none)
    | some g => downloadsCounters g :=
  congrArg (Program.bind readHolder.run) (funext fun
    | .error _ => rfl
    | .ok none => rfl
    | .ok (some g) => congrArg (Program.bind (request .store (.getAll (Key.downloads g))).run) (funext fun
      | .error _ => rfl
      | .ok _ => rfl))

theorem allCounters_finds : Finds allCounters := by
  rw [allCounters_eq]
  refine finds_onward steady_readHolder fun active => ?_
  cases active with
  | none => exact finds_done _
  | some g => exact downloadsCounters_finds g

end Enumerations
end Repository
end ShareIndex
