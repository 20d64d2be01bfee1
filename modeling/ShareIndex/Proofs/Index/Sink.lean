import ShareIndex.Index.Dump
import ShareIndex.Proofs.Repository.Steady
import ShareIndex.Proofs.Text.Bytes

/-!
# ShareIndex.Proofs.Index.Sink

What a sink has received of a dump, whatever it accepts and wherever the dump stops.

* `Delivers` — a sink has received a text, or a call has failed after a beginning of it.
* `writeAll_delivers`  — a dump of what has been found delivers the text of all there is.
* `writeAll_unlimited` — it succeeds when nothing is in its way.
-/

namespace ShareIndex
namespace Index

open Repository (Found allCounters)
open Share (DownloadCounters)

/-- A text as it is written. -/
def textBytes (text : List Char) : List UInt8 := Text.bytes (String.ofList text)

theorem textBytes_append (a b : List Char) : textBytes (a ++ b) = textBytes a ++ textBytes b := by
  simp [textBytes, Text.bytes_eq]

theorem textBytes_ne_nil {text : List Char} (h : text ≠ []) : textBytes text ≠ [] := by
  cases text with
  | nil => exact absurd rfl h
  | cons c text =>
    rw [textBytes, Text.bytes_eq, String.toList_ofList, List.flatMap_cons]
    unfold String.utf8EncodeChar
    dsimp only
    split_ifs <;> simp

/-- Since the first state the sink has received a beginning of the text, and the call has succeeded if that is all. -/
def Delivers (s s' : Sink) (result : Except Error Unit) (text : List Char) : Prop :=
  ∃ part, s'.received = s.received ++ part ∧ part <+: textBytes text ∧ (result = .ok () ↔ part = textBytes text)

namespace Delivers

variable {s s' s'' : Sink} {result : Except Error Unit} {e : Error} {a b : List Char}

/-- A call that fails before it writes anything. -/
theorem nothing (s : Sink) (e : Error) (h : a ≠ []) : Delivers s s (.error e) a :=
  ⟨[], (List.append_nil _).symm, List.nil_prefix, by simp [(textBytes_ne_nil h).symm]⟩

theorem append (h1 : Delivers s s' (.ok ()) a) (h2 : Delivers s' s'' result b) : Delivers s s'' result (a ++ b) := by
  obtain ⟨first, hs, -, hall⟩ := h1
  obtain rfl := hall.mp rfl
  obtain ⟨part, hs', hpart, hresult⟩ := h2
  refine ⟨textBytes a ++ part, ?_, ?_, ?_⟩
  · rw [hs', hs, List.append_assoc]
  · rw [textBytes_append]
    exact (List.prefix_append_right_inj _).mpr hpart
  · rw [textBytes_append, List.append_cancel_left_eq]
    exact hresult

/-- What a failed call has not written is missing of a longer text, too. -/
theorem stop (h : Delivers s s' (.error e) a) : Delivers s s' (.error e) (a ++ b) := by
  obtain ⟨part, hs, hpart, hresult⟩ := h
  have hne : part ≠ textBytes a := fun hall => nomatch hresult.mpr hall
  rw [Delivers, textBytes_append]
  refine ⟨part, hs, hpart.trans (List.prefix_append _ _), ⟨nofun, fun hall => absurd ?_ hne⟩⟩
  exact hpart.eq_of_length_le (by simp [hall])

end Delivers

theorem writeText_delivers (s : Sink) (text : List Char) :
    Delivers s (s.writeText text).2 (s.writeText text).1 text := by
  rw [Sink.writeText, show (String.ofList text).toUTF8.data.toList = textBytes text from rfl, Sink.write]
  cases s.room with
  | none => exact ⟨textBytes text, rfl, List.prefix_refl _, by simp⟩
  | some room =>
    by_cases h : (textBytes text).length ≤ room
    · have htake : (textBytes text).take room = textBytes text := List.take_of_length_le h
      simp only [h, decide_true]
      exact ⟨_, rfl, List.take_prefix _ _, by simp [htake]⟩
    · have htake : (textBytes text).take room ≠ textBytes text := fun heq => h (by
        have := congrArg List.length heq
        rw [List.length_take] at this
        omega)
      simp only [h, decide_false]
      exact ⟨_, rfl, List.take_prefix _ _, by simp [htake]⟩

/-! ### Dumps -/

/-- The items of downloads when some have been written before. -/
def itemsFrom : Nat → List DownloadCounters → List Char
  | _, [] => []
  | written, c :: rest => item (written == 0) c ++ itemsFrom (written + 1) rest

theorem itemsFrom_succ (written : Nat) (l : List DownloadCounters) :
    itemsFrom (written + 1) l = l.flatMap (item false) := by
  induction l generalizing written with
  | nil => rfl
  | cons c rest ih => rw [itemsFrom, ih, List.flatMap_cons]; rfl

theorem itemsFrom_zero (l : List DownloadCounters) : itemsFrom 0 l = items l := by
  cases l with
  | nil => rfl
  | cons c rest => rw [itemsFrom, itemsFrom_succ]; rfl

section Dumps

variable {cancelled : Cancellation} {failure : Option Repository.Error} {found listing : List DownloadCounters}

/-- By induction on what is still to be written. -/
theorem writeItems_delivers (h : Found listing (found, failure)) (written : Nat) (s : Sink) :
    Delivers s (s.writeItems cancelled failure written found).2 (s.writeItems cancelled failure written found).1
      (itemsFrom written listing ++ listEnd) := by
  induction found generalizing listing written s with
  | nil =>
    cases failure with
    | none =>
      obtain rfl : [] = listing := h
      exact writeText_delivers s listEnd
    | some e => exact .nothing s _ (by simp [listEnd])
  | cons c rest ih =>
    obtain ⟨later, rfl, hlater⟩ : ∃ later, listing = c :: later ∧ Found later (rest, failure) := by
      cases failure with
      | none => exact ⟨rest, h.symm, rfl⟩
      | some e =>
        obtain ⟨more, hmore⟩ := h
        exact ⟨rest ++ more, hmore.symm, List.prefix_append _ _⟩
    rw [itemsFrom, List.append_assoc, Sink.writeItems]
    by_cases hc : cancelled written = true
    · rw [if_pos hc]
      exact .nothing s _ (by simp [listEnd])
    · rw [if_neg hc]
      have hitem := writeText_delivers s (item (written == 0) c)
      rcases hw : s.writeText (item (written == 0) c) with ⟨⟨e⟩ | ⟨⟩, s'⟩
      · rw [hw] at hitem
        exact hitem.stop
      · rw [hw] at hitem
        exact hitem.append (ih hlater (written + 1) s')

theorem writeAll_delivers {counters : List DownloadCounters × Option Repository.Error} (h : Found listing counters)
    (s : Sink) : Delivers s (s.writeAll cancelled counters).2 (s.writeAll cancelled counters).1 (dumpText listing) := by
  rw [dumpText, List.append_assoc, ← itemsFrom_zero, Sink.writeAll]
  have hstart := writeText_delivers s listStart
  rcases hw : s.writeText listStart with ⟨⟨e⟩ | ⟨⟩, s'⟩
  · rw [hw] at hstart
    exact hstart.stop
  · rw [hw] at hstart
    exact hstart.append (writeItems_delivers h 0 s')

theorem writeItems_unlimited (listing : List DownloadCounters) (written : Nat) (received : List UInt8) :
    (Sink.writeItems (fun _ => false) none written listing ⟨received, none⟩).1 = .ok () := by
  induction listing generalizing written received with
  | nil => rfl
  | cons c rest ih => exact ih (written + 1) _

/-- Nothing stops a dump into a sink without a limit. -/
theorem writeAll_unlimited (listing : List DownloadCounters) :
    ((Sink.empty none).writeAll (fun _ => false) (listing, none)).1 = .ok () :=
  writeItems_unlimited listing 0 _

end Dumps

/-! ### Calls -/

section Calls

variable {S : Type}

/-- A call that is alone gives the slot back. -/
theorem alone_free {α : Type} {w : World S} (h : w.slot = .free) (refusal : α) (call : World S → α × World S) :
    w.alone refusal call =
      ((call { w with slot := .taken }).1, { (call { w with slot := .taken }).2 with slot := .free }) := by
  rw [World.alone, h]
  rfl

theorem stream_eq [Store.KeyValueStore S] (cancelled : Cancellation) (room : Option Nat) (w : World S) :
    stream cancelled room w =
      ((((Sink.empty room).writeAll cancelled (allCounters.run w.shared).1).1,
        ((Sink.empty room).writeAll cancelled (allCounters.run w.shared).1).2.received),
        { w with shared := (allCounters.run w.shared).2 }) := rfl

end Calls
end Index
end ShareIndex
