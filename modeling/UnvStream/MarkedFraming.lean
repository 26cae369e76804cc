import Mathlib.Data.List.DropRight

/-!
# Framing by closing marks

A stream of items, some of which close a group. `groups` cuts the stream after
every closing item and `leftover` is the part that is still open. The items
carry a payload; a receiver that only concatenates payloads and emits at every
closing item produces exactly the payloads of the groups.
-/

namespace MarkedFraming

universe u v
variable {β : Type u} {α : Type v} (closes : β → Bool) (body : β → List α)

/-- The closed groups of a stream that starts with the items `waiting` open. -/
def groups : List β → List β → List (List β)
  | _, [] => []
  | waiting, c :: cs =>
    if closes c then (waiting ++ [c]) :: groups [] cs else groups (waiting ++ [c]) cs

def leftover : List β → List β → List β
  | waiting, [] => waiting
  | waiting, c :: cs => if closes c then leftover [] cs else leftover (waiting ++ [c]) cs

def payload (items : List β) : List α := (items.map body).flatten

/-- What a receiver emits on each item: the collected payload on a closing item,
nothing on the others. -/
def outputs : List β → List β → List (List α)
  | _, [] => []
  | waiting, c :: cs =>
    if closes c then payload body (waiting ++ [c]) :: outputs [] cs
    else [] :: outputs (waiting ++ [c]) cs

/-- The payload collected since the last closing item never exceeds `cap`,
starting from `held` collected elements. -/
def Bounded (cap : Nat) : Nat → List β → Prop
  | _, [] => True
  | held, c :: cs => held + (body c).length ≤ cap ∧
      Bounded cap (if closes c then 0 else held + (body c).length) cs

/-- A group is complete when its last item closes it and no earlier item does. -/
def Complete (g : List β) : Prop :=
  ∃ init last, g = init ++ [last] ∧ closes last = true ∧ ∀ c ∈ init, closes c = false

@[simp] theorem payload_nil : payload body ([] : List β) = [] := rfl

theorem payload_append (xs ys : List β) :
    payload body (xs ++ ys) = payload body xs ++ payload body ys := by
  simp [payload]

@[simp] theorem payload_singleton (c : β) : payload body [c] = body c := by
  simp [payload]

@[simp] theorem payload_cons (c : β) (cs : List β) :
    payload body (c :: cs) = body c ++ payload body cs := by
  simp [payload]

theorem length_body_le {c : β} {cs : List β} (hc : c ∈ cs) :
    (body c).length ≤ (payload body cs).length := by
  induction cs with
  | nil => cases hc
  | cons d cs ih =>
    rw [payload_cons, List.length_append]
    rcases List.mem_cons.mp hc with rfl | hc
    · omega
    · have := ih hc
      omega

theorem bounded_of_total {cap held : Nat} {cs : List β}
    (total : held + (payload body cs).length ≤ cap) : Bounded closes body cap held cs := by
  induction cs generalizing held with
  | nil => trivial
  | cons c cs ih =>
    rw [payload_cons, List.length_append] at total
    refine ⟨by omega, ih ?_⟩
    split <;> omega

theorem bounded_complete_append {cap held : Nat} {g rest : List β}
    (complete : Complete closes g) (small : held + (payload body g).length ≤ cap)
    (bounded : Bounded closes body cap 0 rest) : Bounded closes body cap held (g ++ rest) := by
  obtain ⟨init, last, rfl, hlast, hinit⟩ := complete
  induction init generalizing held with
  | nil =>
    have small' : held + (body last).length ≤ cap := by simpa using small
    refine ⟨small', ?_⟩
    rw [if_pos hlast]
    exact bounded
  | cons c init ih =>
    have hc : closes c = false := hinit c List.mem_cons_self
    simp only [List.cons_append, payload_cons, List.length_append] at small
    refine ⟨by omega, ?_⟩
    rw [hc]
    apply ih
    · simp only [payload_append, List.length_append, Bool.false_eq_true,
        if_false] at small ⊢
      omega
    · intro d hd
      exact hinit d (List.mem_cons_of_mem c hd)

/-- Complete groups that fit one by one fit one after the other. -/
theorem bounded_flatten {cap : Nat} (gs : List (List β))
    (complete : ∀ g ∈ gs, Complete closes g)
    (small : ∀ g ∈ gs, (payload body g).length ≤ cap) :
    Bounded closes body cap 0 gs.flatten := by
  induction gs with
  | nil => trivial
  | cons g gs ih =>
    have rest := ih (fun g' hg' => complete g' (List.mem_cons_of_mem g hg'))
      (fun g' hg' => small g' (List.mem_cons_of_mem g hg'))
    rw [List.flatten_cons]
    apply bounded_complete_append closes body (complete g List.mem_cons_self) _ rest
    rw [Nat.zero_add]
    exact small g List.mem_cons_self

theorem groups_append (waiting xs ys : List β) :
    groups closes waiting (xs ++ ys) =
      groups closes waiting xs ++ groups closes (leftover closes waiting xs) ys := by
  induction xs generalizing waiting with
  | nil => rfl
  | cons c cs ih =>
    by_cases h : closes c = true
    · simp only [List.cons_append, groups, leftover, if_pos h, ih]
    · simp only [List.cons_append, groups, leftover, if_neg h, ih]

theorem leftover_append (waiting xs ys : List β) :
    leftover closes waiting (xs ++ ys) = leftover closes (leftover closes waiting xs) ys := by
  induction xs generalizing waiting with
  | nil => rfl
  | cons c cs ih =>
    by_cases h : closes c = true
    · simp only [List.cons_append, leftover, if_pos h, ih]
    · simp only [List.cons_append, leftover, if_neg h, ih]

theorem groups_open (waiting xs : List β) (openItems : ∀ c ∈ xs, closes c = false) :
    groups closes waiting xs = [] ∧ leftover closes waiting xs = waiting ++ xs := by
  induction xs generalizing waiting with
  | nil => simp [groups, leftover]
  | cons c cs ih =>
    have hc : closes c = false := openItems c List.mem_cons_self
    have htail := ih (waiting ++ [c]) (fun d hd => openItems d (List.mem_cons_of_mem c hd))
    simpa [groups, leftover, hc] using htail

theorem groups_complete (waiting g : List β) (complete : Complete closes g) :
    groups closes waiting g = [waiting ++ g] ∧ leftover closes waiting g = [] := by
  obtain ⟨init, last, rfl, hlast, hinit⟩ := complete
  obtain ⟨hg, hl⟩ := groups_open closes waiting init hinit
  constructor
  · rw [groups_append, hg, hl]
    simp [groups, hlast]
  · rw [leftover_append, hl]
    simp [leftover, hlast]

/-- Complete groups sent one after the other are recovered one by one. -/
theorem groups_flatten (gs : List (List β)) (complete : ∀ g ∈ gs, Complete closes g) :
    groups closes [] gs.flatten = gs ∧ leftover closes [] gs.flatten = [] := by
  induction gs with
  | nil => exact ⟨rfl, rfl⟩
  | cons g gs ih =>
    obtain ⟨hg, hl⟩ := groups_complete closes [] g (complete g List.mem_cons_self)
    obtain ⟨ihg, ihl⟩ := ih (fun g' hg' => complete g' (List.mem_cons_of_mem g hg'))
    constructor
    · rw [List.flatten_cons, groups_append, hg, hl, ihg]
      rfl
    · rw [List.flatten_cons, leftover_append, hl, ihl]

/-- Nothing is lost, duplicated or moved by the cutting itself. -/
theorem groups_flatten_append_leftover (waiting xs : List β) :
    (groups closes waiting xs).flatten ++ leftover closes waiting xs = waiting ++ xs := by
  induction xs generalizing waiting with
  | nil => simp [groups, leftover]
  | cons c cs ih =>
    by_cases h : closes c = true
    · simp only [groups, leftover, if_pos h, List.flatten_cons, List.append_assoc, ih,
        List.nil_append, List.cons_append]
    · simp only [groups, leftover, if_neg h, ih, List.append_assoc, List.cons_append,
        List.nil_append]

/-- What is left over is the part of the stream after its last closing item. -/
theorem leftover_eq_rtakeWhile (xs : List β) :
    leftover closes [] xs = xs.rtakeWhile fun c => !closes c := by
  induction xs using List.reverseRecOn with
  | nil => rfl
  | append_singleton xs c ih =>
    rw [leftover_append, List.rtakeWhile_concat, ← ih]
    cases h : closes c with
    | true => simp [leftover, h]
    | false => simp [leftover, h]

theorem groups_flatten_eq_rdropWhile (xs : List β) :
    (groups closes [] xs).flatten = xs.rdropWhile fun c => !closes c := by
  have cut := groups_flatten_append_leftover closes [] xs
  rw [leftover_eq_rtakeWhile] at cut
  exact List.append_cancel_right (cut.trans List.rdropWhile_append_rtakeWhile.symm)

theorem complete_of_mem_groups (waiting xs : List β)
    (openWaiting : ∀ c ∈ waiting, closes c = false) {g : List β}
    (hg : g ∈ groups closes waiting xs) : Complete closes g := by
  induction xs generalizing waiting with
  | nil => simp [groups] at hg
  | cons c cs ih =>
    by_cases h : closes c = true
    · simp only [groups, if_pos h, List.mem_cons] at hg
      rcases hg with rfl | hg
      · exact ⟨waiting, c, rfl, h, openWaiting⟩
      · exact ih [] (by simp) hg
    · simp only [groups, if_neg h] at hg
      apply ih (waiting ++ [c]) _ hg
      intro d hd
      rcases List.mem_append.mp hd with hd | hd
      · exact openWaiting d hd
      · rw [List.mem_singleton.mp hd]
        simpa using h

/-- The receiver's output is the payload of the closed groups. -/
theorem outputs_flatten (waiting xs : List β) :
    (outputs closes body waiting xs).flatten =
      payload body (groups closes waiting xs).flatten := by
  induction xs generalizing waiting with
  | nil => rfl
  | cons c cs ih =>
    by_cases h : closes c = true
    · simp only [outputs, groups, if_pos h, List.flatten_cons, ih, payload_append]
    · simp only [outputs, groups, if_neg h, List.flatten_cons, List.nil_append, ih]

/-- The outputs on the closing items are the payloads of the groups, one each. -/
theorem outputs_at_closing (waiting xs : List β) :
    ((xs.zip (outputs closes body waiting xs)).filter (fun p => closes p.1)).map Prod.snd =
      (groups closes waiting xs).map (payload body) := by
  induction xs generalizing waiting with
  | nil => rfl
  | cons c cs ih =>
    by_cases h : closes c = true
    · simp only [outputs, groups, if_pos h, List.zip_cons_cons, List.filter_cons, List.map_cons,
        ih]
    · simp only [outputs, groups, if_neg h, List.zip_cons_cons, List.filter_cons, ih]

end MarkedFraming
