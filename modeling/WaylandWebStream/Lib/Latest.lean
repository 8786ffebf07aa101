import Mathlib.Data.List.Induction
import Mathlib.Data.Option.Basic

/-!
# The latest report — and what a lossy filter keeps of it

A list of messages, some of which report a value; the latest report is
the one that counts. Where a filter drops messages, and the receiver
heeds only some of those that report, what it has at the end is the
latest report of all exactly when the last message to report was kept
and heeded, or the one heeded before it said the same.
-/

namespace WaylandWebStream

variable {α β : Type*}

/-- The last value `report` gives on the list. -/
def latest (report : α → Option β) (l : List α) : Option β := (l.filterMap report).getLast?

namespace Latest

variable {report heed : α → Option β} {kept : α → Bool} {l before after : List α} {e : α} {p : β}

@[simp] theorem latest_nil : latest report [] = none := rfl

theorem latest_append (l m : List α) :
    latest report (l ++ m) = (latest report m).or (latest report l) := by
  rw [latest, List.filterMap_append, List.getLast?_append]
  rfl

theorem latest_singleton : latest report [e] = report e := by
  cases h : report e <;> simp [latest, h]

theorem latest_concat : latest report (l ++ [e]) = (report e).or (latest report l) := by
  rw [latest_append, latest_singleton]

theorem latest_cons : latest report (e :: l) = (latest report l).or (report e) := by
  rw [← List.singleton_append, latest_append, latest_singleton]

theorem latest_map {γ : Type*} (g : γ → α) (l : List γ) :
    latest report (l.map g) = latest (fun c => report (g c)) l := by
  rw [latest, List.filterMap_map]
  rfl

/-- Nothing is reported exactly on a list none of whose messages reports. -/
theorem latest_eq_none_iff : latest report l = none ↔ ∀ x ∈ l, report x = none := by
  rw [latest, List.getLast?_eq_none_iff, List.filterMap_eq_nil_iff]

theorem latest_eq_none (h : ∀ x ∈ l, report x = none) : latest report l = none :=
  latest_eq_none_iff.2 h

/-- Either nothing reports or some message is the last to. -/
theorem last_report (report : α → Option β) (l : List α) :
    (∀ x ∈ l, report x = none) ∨ ∃ before e after p, l = before ++ e :: after ∧
      report e = some p ∧ ∀ x ∈ after, report x = none := by
  induction l using List.reverseRecOn with
  | nil => exact .inl fun _ h => absurd h List.not_mem_nil
  | append_singleton l e ih =>
    cases he : report e with
    | some p => exact .inr ⟨l, e, [], p, rfl, he, fun _ h => absurd h List.not_mem_nil⟩
    | none =>
      rcases ih with hnone | ⟨before, f, after, p, rfl, hf, hafter⟩
      · refine .inl fun x hx => ?_
        rcases List.mem_append.1 hx with hx | hx
        · exact hnone x hx
        · rw [List.mem_singleton.1 hx, he]
      · refine .inr ⟨before, f, after ++ [e], p, by simp, hf, fun x hx => ?_⟩
        rcases List.mem_append.1 hx with hx | hx
        · exact hafter x hx
        · rw [List.mem_singleton.1 hx, he]

/-- The latest report is the last one's. -/
theorem latest_split (he : report e = some p) (hafter : ∀ x ∈ after, report x = none) :
    latest report (before ++ e :: after) = some p := by
  rw [latest_append, latest_cons, latest_eq_none hafter, he]
  rfl

/-- **The last report counts**: it was kept and heeded, or what was kept
and heeded before it says the same. -/
def Settled (kept : α → Bool) (report heed : α → Option β) (l : List α) : Prop :=
  ∀ before e after p, l = before ++ e :: after → report e = some p →
    (∀ x ∈ after, report x = none) →
    (kept e ∧ (heed e).isSome) ∨ latest heed (before.filter kept) = some p

/-- What is heeded of the kept messages, up to the last report. -/
theorem latest_kept_split (hheed : ∀ x q, heed x = some q → report x = some q)
    (he : report e = some p) (hafter : ∀ x ∈ after, report x = none) :
    latest heed ((before ++ e :: after).filter kept) =
      if kept e ∧ (heed e).isSome then some p else latest heed (before.filter kept) := by
  have hquiet : latest heed (after.filter kept) = none := by
    refine latest_eq_none fun x hx => ?_
    cases hx' : heed x with
    | none => rfl
    | some q =>
      have hreport := hheed x q hx'
      rw [hafter x (List.mem_filter.1 hx).1] at hreport
      cases hreport
  rw [List.filter_append, latest_append, List.filter_cons]
  cases hk : kept e with
  | false => simp [hquiet]
  | true =>
    rw [if_pos rfl, latest_cons, hquiet, Option.none_or]
    cases hh : heed e with
    | none => simp
    | some q =>
      obtain rfl : q = p := Option.some.inj ((hheed e q hh).symm.trans he)
      simp

/-- **When the latest report comes through.** -/
theorem latest_eq_iff_settled (hheed : ∀ x q, heed x = some q → report x = some q) :
    latest heed (l.filter kept) = latest report l ↔ Settled kept report heed l := by
  constructor
  · rintro heq before e after p rfl he hafter
    rw [latest_split he hafter, latest_kept_split hheed he hafter] at heq
    split_ifs at heq with hk
    · exact .inl hk
    · exact .inr heq
  · intro hsettled
    rcases last_report report l with hnone | ⟨before, e, after, p, rfl, he, hafter⟩
    · rw [latest_eq_none hnone]
      refine latest_eq_none fun x hx => ?_
      cases hx' : heed x with
      | none => rfl
      | some q =>
        have hreport := hheed x q hx'
        rw [hnone x (List.mem_filter.1 hx).1] at hreport
        cases hreport
    · rw [latest_split he hafter, latest_kept_split hheed he hafter]
      rcases hsettled before e after p rfl he hafter with hk | hprev
      · rw [if_pos hk]
      · rw [hprev, ite_self]

end Latest

end WaylandWebStream
