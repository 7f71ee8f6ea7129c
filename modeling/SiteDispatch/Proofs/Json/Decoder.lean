/-
  SiteDispatch.Proofs.Json.Decoder

  What the readings of lists, tables and records find in a value that was built
  for them.
-/

import SiteDispatch.Json.Decoder
import SiteDispatch.Proofs.Json.RoundTrip
import SiteDispatch.Proofs.OrderedMap.Lookup

namespace SiteDispatch
namespace Json

theorem all?_map {α β γ : Type} {f : α → Option β} {g : γ → α} {h : γ → β} {l : List γ}
    (hread : ∀ c ∈ l, f (g c) = some (h c)) : all? f (l.map g) = some (l.map h) := by
  induction l with
  | nil => rfl
  | cons c l ih =>
      have hrest := ih fun d hd => hread d (List.mem_cons_of_mem _ hd)
      rw [List.map_cons, all?, hread c List.mem_cons_self, hrest]
      rfl

theorem all?_eq_self {α : Type} {f : α → Option α} {l : List α} (hread : ∀ a ∈ l, f a = some a) :
    all? f l = some l := by
  have hall := all?_map (f := f) (g := id) (h := id) hread
  rwa [List.map_id] at hall

/-! ## Lists and tables -/

theorem list?_map {α : Type} {item? : Json → Option α} {encode : α → Json} {l : List α}
    (hread : ∀ a ∈ l, item? (encode a) = some a) :
    list? item? (.list (l.map encode)) = some l := by
  rw [list?, all?_map hread, List.map_id']

theorem key?_decimal {number? : Json → Option Int} {k : Int}
    (hk : number? (.integer k) = some k) : key? number? (decimal k) = some k := by
  have hscan := scanNumber_decimal k endsNumber_nil
  rw [List.append_nil] at hscan
  rw [key?, hscan]
  exact hk

/-- A table is read off the object it was turned into. -/
theorem table?_ofTable {α : Type} {number? : Json → Option Int} {value? : Json → Option α}
    {value : α → Json} {m : OrderedMap Int α}
    (hread : ∀ e ∈ m.entries, number? (.integer e.1) = some e.1 ∧ value? (value e.2) = some e.2) :
    table? number? value? (ofTable value m) = some m := by
  rw [ofTable, table?, all?_map (h := id)]
  · -- The entries are in order, so that none replaces another.
    rw [List.map_id, Option.map_some, OrderedMap.ofList_entries]
  · intro e he
    obtain ⟨hkey, hvalue⟩ := hread e he
    simp only [key?_decimal hkey, hvalue, id]

theorem plain_ofTable {α : Type} {value : α → Json} {m : OrderedMap Int α}
    (hvalues : ∀ e ∈ m.entries, Plain (value e.2)) : Plain (ofTable value m) := by
  apply Plain.object
  · exact List.forall_mem_map.2 fun e _ => plainText_decimal e.1
  · exact List.forall_mem_map.2 hvalues

/-! ## Records -/

/-- Among names that differ each has one value. -/
theorem only?_of_mem {members : List (List Char × Json)} (hnodup : (members.map (·.1)).Nodup)
    {m : List Char × Json} (hm : m ∈ members) : only? members m.1 = some m.2 := by
  have honly : members.filter (fun n => n.1 = m.1) = [m] := by
    induction members with
    | nil => cases hm
    | cons n members ih =>
        obtain ⟨hfresh, hnodup⟩ := List.nodup_cons.1 hnodup
        rcases List.mem_cons.1 hm with rfl | hm
        · have hnone : members.filter (fun n => n.1 = m.1) = [] := by
            rw [List.filter_eq_nil_iff]
            intro n hn heq
            exact hfresh (List.mem_map.2 ⟨n, hn, of_decide_eq_true heq⟩)
          rw [List.filter_cons_of_pos (by simp), hnone]
        · have hne : n.1 ≠ m.1 := fun heq => hfresh (List.mem_map.2 ⟨m, hm, heq.symm⟩)
          rw [List.filter_cons_of_neg (by simpa using hne), ih hnodup hm]
  rw [only?, honly]

/-- The values of a record are read off the object that has them under its names. -/
theorem record?_object {names : List (List Char)} (values : List Json)
    (hnames : ∀ name ∈ names, PlainText name) (hnodup : names.Nodup)
    (hlength : values.length = names.length) :
    record? names (.object (names.zip values)) = some values := by
  have hkeys : (names.zip values).map (·.1) = names := List.map_fst_zip (Nat.le_of_eq hlength.symm)
  have hvalues : (names.zip values).map (·.2) = values := List.map_snd_zip (Nat.le_of_eq hlength)
  have hmembers : all? (fun m => (content? m.1).map (·, m.2)) (names.zip values)
      = some (names.zip values) := by
    have hcontent : ∀ m ∈ names.zip values, (content? m.1).map (·, m.2) = some m := by
      intro m hm
      rw [content?_of_plain (hnames m.1 (List.of_mem_zip hm).1)]
      rfl
    exact all?_eq_self hcontent
  have honly : all? (only? (names.zip values)) ((names.zip values).map (·.1))
      = some ((names.zip values).map (·.2)) :=
    all?_map fun m hm => only?_of_mem (hkeys.symm ▸ hnodup) hm
  rw [hkeys, hvalues] at honly
  rw [record?, hmembers]
  exact honly

theorem plain_record {names : List (List Char)} (values : List Json)
    (hnames : ∀ name ∈ names, PlainText name) (hvalues : ∀ value ∈ values, Plain value) :
    Plain (.object (names.zip values)) :=
  .object (fun m hm => hnames m.1 (List.of_mem_zip hm).1)
    fun m hm => hvalues m.2 (List.of_mem_zip hm).2

end Json
end SiteDispatch
