import Courier.Proofs.BodyFraming
import Courier.Proofs.ByteOrder
import Mathlib.Data.List.Nodup
set_option autoImplicit false

/-!
# What the headers of a request hold

Under a reserved name there is one value, whatever the webhook's own headers say. Under any other name there is the value
of the entry whose key comes last, byte by byte, among those that are the name up to case and whose key and value are
well-formed, and without such an entry there is nothing.
-/

namespace Courier

/-! ### Names -/

namespace Header

theorem name?_eq_some {key name : String} (named : name? key = some name) :
    name = String.ofList (key.toList.map Char.toLower) := by
  unfold name? at named
  dsimp only at named
  split at named
  · exact (Option.some.inj named).symm
  · cases named

end Header

/-! ### Members of an object -/

namespace Json

/-- The members of an object stand in the order of their names, each name once. -/
def InOrder : Json → Prop
  | .object ms => ms.Pairwise (·.1 < ·.1)
  | _ => True

def Holds (j : Json) (key text : String) : Prop := ∃ ms, j = .object ms ∧ (key, .string text) ∈ ms

variable {j : Json} {key text : String}

theorem mem_texts : (key, text) ∈ j.texts ↔ j.Holds key text := by
  cases j with
  | object ms =>
    constructor
    · intro member
      obtain ⟨⟨k, v⟩, hm, told⟩ := List.mem_filterMap.mp member
      cases v <;> cases told
      exact ⟨ms, rfl, hm⟩
    · rintro ⟨ms', same, hm⟩
      cases same
      exact List.mem_filterMap.mpr ⟨_, hm, rfl⟩
  | null | bool | integer | binary | string | array =>
    refine ⟨fun member => (by cases member), ?_⟩
    rintro ⟨ms, same, -⟩
    cases same

theorem texts_ordered (ordered : j.InOrder) : j.texts.Pairwise (·.1 < ·.1) := by
  cases j with
  | object ms =>
    refine ordered.filterMap _ fun m n before x hx y hy => ?_
    obtain ⟨-, -, rfl⟩ := Option.map_eq_some_iff.mp hx
    obtain ⟨-, -, rfl⟩ := Option.map_eq_some_iff.mp hy
    exact before
  | null | bool | integer | binary | string | array => exact .nil

theorem sortMembers_inOrder (ms : List (String × Json)) : (object (sortMembers ms)).InOrder := by
  refine List.foldlRecOn _ _ (motive := fun ms : List (String × Json) => ms.Pairwise (·.1 < ·.1)) .nil ?_
  exact fun _ ordered m _ => Headers.ordered_putMember ordered m.1 m.2

theorem ofTexts_inOrder (own : List (String × String)) : (Json.ofTexts own).InOrder := sortMembers_inOrder _

theorem toJson_inOrder (n : Number) : n.toJson.InOrder := by cases n <;> exact trivial

def ReadsInOrder (x : Step Json) : Prop := ∀ y, x = .ok y → y.1.InOrder

namespace ReadsInOrder

theorem failAt (f : Fault) (s : List Char) : ReadsInOrder (failAt f s) := fun _ read => by cases read

theorem map {α : Type} {x : Except Error α} {f : α → Json × List Char} (ordered : ∀ a, (f a).1.InOrder) :
    ReadsInOrder (x.map f) := by
  intro y read
  cases x with
  | error e => cases read
  | ok a =>
    cases read
    exact ordered a

theorem ite {p : Prop} [Decidable p] {x y : Step Json} (hx : ReadsInOrder x) (hy : ReadsInOrder y) :
    ReadsInOrder (if p then x else y) := by
  split
  · exact hx
  · exact hy

end ReadsInOrder

/-- The reader puts the members of an object in order. -/
theorem value_inOrder (fuel depth : Nat) (s : List Char) : ReadsInOrder (value fuel depth s) := by
  cases fuel with
  | zero => exact .failAt _ _
  | succ fuel =>
    unfold value
    split
    · exact .failAt _ _
    · refine .ite (.map fun _ => trivial) ?_
      refine .ite (.map fun _ => trivial) ?_
      refine .ite (.map fun _ => trivial) ?_
      refine .ite (.map fun n => toJson_inOrder n.1) ?_
      refine .ite (.map fun n => toJson_inOrder n.1) ?_
      refine .ite (.map fun _ => trivial) ?_
      refine .ite (.ite (.failAt _ _) (.map fun _ => trivial)) ?_
      exact .ite (.ite (.failAt _ _) (.map fun ms => sortMembers_inOrder ms.1)) (.failAt _ _)

theorem parse_inOrder {s : String} {j : Json} (read : parse s = .ok j) : j.InOrder := by
  unfold parse at read
  obtain ⟨x, value, last⟩ := bind_ok_iff.mp read
  have whole : j = x.1 := by
    unfold finish at last
    split at last
    · exact (Except.ok.inj last).symm
    · cases last
  exact whole ▸ value_inOrder _ _ _ x value

theorem mem_putMember_self {α : Type} (name : String) (v : α) (ms : List (String × α)) :
    (name, v) ∈ putMember name v ms := by
  induction ms with
  | nil => exact List.mem_cons_self
  | cons m ms ih =>
    unfold putMember
    split
    · exact List.mem_cons_self
    · split
      · exact List.mem_cons_self
      · exact List.mem_cons_of_mem _ ih

theorem mem_putMember_of_ne {α : Type} {name : String} {v : α} {ms : List (String × α)} {m : String × α} (hm : m ∈ ms)
    (apart : name ≠ m.1) : m ∈ putMember name v ms := by
  induction ms with
  | nil => cases hm
  | cons x r ih =>
    unfold putMember
    split
    · exact List.mem_cons_of_mem _ hm
    · split
      · next same =>
        rcases List.mem_cons.mp hm with rfl | later
        · exact absurd same apart
        · exact List.mem_cons_of_mem _ later
      · rcases List.mem_cons.mp hm with rfl | later
        · exact List.mem_cons_self
        · exact List.mem_cons_of_mem _ (ih later)

/-- Of members with distinct names none is lost. -/
theorem mem_sortMembers {α : Type} {ms : List (String × α)} (distinct : (ms.map (·.1)).Nodup) {m : String × α}
    (hm : m ∈ ms) : m ∈ sortMembers ms := by
  unfold sortMembers
  induction ms using List.reverseRecOn with
  | nil => cases hm
  | append_singleton ms last ih =>
    rw [List.map_append, List.nodup_append] at distinct
    rw [List.foldl_append]
    rcases List.mem_append.mp hm with before | here
    · exact mem_putMember_of_ne (ih distinct.1 before)
        (distinct.2.2 m.1 (List.mem_map_of_mem before) last.1 List.mem_cons_self).symm
    · obtain rfl := List.mem_singleton.mp here
      exact mem_putMember_self _ _ _

theorem holds_ofTexts {own : List (String × String)} (distinct : (own.map (·.1)).Nodup) {e : String × String}
    (he : e ∈ own) : (Json.ofTexts own).Holds e.1 e.2 := by
  refine ⟨_, rfl, mem_sortMembers ?_ (List.mem_map.mpr ⟨e, he, rfl⟩)⟩
  rwa [List.map_map]

end Json

/-! ### Which entry counts -/

theorem getLast?_ordered {α : Type} {r : α → α → Prop} {l : List α} {e x : α} (ordered : l.Pairwise r)
    (last : l.getLast? = some e) (hx : x ∈ l) : x = e ∨ r x e := by
  obtain ⟨init, rfl⟩ := List.getLast?_eq_some_iff.mp last
  rcases List.mem_append.mp hx with before | here
  · exact .inr ((List.pairwise_append.mp ordered).2.2 x before e List.mem_cons_self)
  · exact .inl (List.mem_singleton.mp here)

namespace Webhook

/-- An entry of the webhook's own headers makes a header of this name: its key is the name up to case, and both its key
and its value are well-formed. -/
def Offers (w : Webhook) (name key value : String) : Prop :=
  w.headers.Holds key value ∧ Header.name? key = some name ∧ Header.isValue value = true

/-- Of the entries that make a header of this name it is the one with the greatest key, byte by byte. -/
def Decides (w : Webhook) (name key value : String) : Prop :=
  w.Offers name key value ∧ ∀ k v, w.Offers name k v → k = key ∨ Text.bytes k < Text.bytes key

variable {w : Webhook} {name value : String}

theorem mem_offers {key value : String} :
    (key, value) ∈ w.customHeaders.filter (fun e => Header.name? e.1 = some name ∧ Header.isValue e.2 = true) ↔
      w.Offers name key value := by
  rw [List.mem_filter, decide_eq_true_eq, customHeaders, Json.mem_texts]
  rfl

theorem header?_eq_none_iff : w.header? name = none ↔ ∀ k v, ¬ w.Offers name k v := by
  rw [header?, Option.map_eq_none_iff, List.getLast?_eq_none_iff, List.eq_nil_iff_forall_not_mem]
  exact ⟨fun empty k v offers => empty (k, v) (mem_offers.mpr offers), fun none e he => none e.1 e.2 (mem_offers.mp he)⟩

theorem header?_eq_some_iff (ordered : w.headers.InOrder) :
    w.header? name = some value ↔ ∃ key, w.Decides name key value := by
  have sorted := (Json.texts_ordered ordered).filter fun e => Header.name? e.1 = some name ∧ Header.isValue e.2 = true
  unfold header?
  constructor
  · intro told
    obtain ⟨⟨key, v⟩, last, rfl⟩ := Option.map_eq_some_iff.mp told
    have offers := mem_offers.mp (List.mem_of_getLast? last)
    refine ⟨key, offers, fun k v hk => ?_⟩
    rcases getLast?_ordered sorted last (mem_offers.mpr hk) with same | before
    · exact .inl (congrArg Prod.fst same)
    · exact .inr (Text.bytes_lt before)
  · rintro ⟨key, offers, greatest⟩
    have member := mem_offers.mpr offers
    cases last : (w.customHeaders.filter fun e => Header.name? e.1 = some name ∧ Header.isValue e.2 = true).getLast? with
    | none =>
      rw [List.getLast?_eq_none_iff.mp last] at member
      cases member
    | some e =>
      have counted := mem_offers.mp (List.mem_of_getLast? last)
      rcases getLast?_ordered sorted last member with rfl | before
      · rfl
      · have ahead := Text.bytes_lt before
        rcases greatest e.1 e.2 counted with same | after
        · exact absurd (same ▸ before) (String.lt_irrefl _)
        · exact absurd after (List.lt_asymm ahead)

/-- Where the keys differ by more than case, each entry that is well-formed counts. -/
theorem decides_of_distinct {own : List (String × String)} (given : w.headers = .ofTexts own)
    (distinct : (own.map fun e => e.1.toList.map Char.toLower).Nodup) {e : String × String} (he : e ∈ own)
    (named : Header.name? e.1 = some name) (legal : Header.isValue e.2 = true) : w.Decides name e.1 e.2 := by
  have apart : (own.map (·.1)).Nodup := by
    refine List.Nodup.of_map (fun key : String => key.toList.map Char.toLower) ?_
    rwa [List.map_map]
  refine ⟨⟨given ▸ Json.holds_ofTexts apart he, named, legal⟩, fun k v offers => .inl ?_⟩
  have member : (k, v) ∈ own := by
    have told := Json.mem_texts.mpr offers.1
    rw [given] at told
    exact Json.mem_of_mem_texts told
  have alike : k.toList.map Char.toLower = e.1.toList.map Char.toLower := by
    have same := (Header.name?_eq_some offers.2.1).symm.trans (Header.name?_eq_some named)
    exact String.ofList_inj.mp same
  exact congrArg Prod.fst (List.inj_on_of_nodup_map distinct member he alike)

end Webhook

/-! ### The whole map -/

def SenderConfig.reservedNames (c : SenderConfig) : List String :=
  (Header.name? c.signatureHeader).toList ++ Sender.fixedHeaders

namespace Headers

theorem get?_foldl_set_of_mem {entries : List (String × String)} {n : String} (mem : n ∈ entries.map (·.1)) :
    ∃ v, ∀ h : Headers, (entries.foldl (fun h e => h.set e.1 e.2) h).get? n = some v := by
  induction entries with
  | nil => cases mem
  | cons e entries ih =>
    by_cases later : n ∈ entries.map (·.1)
    · obtain ⟨v, kept⟩ := ih later
      exact ⟨v, fun h => kept (h.set e.1 e.2)⟩
    · have here : n = e.1 := (List.mem_cons.mp mem).resolve_right later
      refine ⟨e.2, fun h => ?_⟩
      rw [List.foldl_cons, get?_foldl_set later, get?_set, if_pos here]

end Headers

namespace Sender

variable {c : SenderConfig} {s : Sender} {d : Delivery} {w : Webhook} {h : Headers}

theorem mem_reservedNames (made : make c = .ok s) {n : String} :
    n ∈ c.reservedNames ↔ n = s.signatureHeader ∨ n ∈ fixedHeaders := by
  rw [SenderConfig.reservedNames, (make_ok made).1]
  exact List.mem_cons

/-- The headers of a request hold one value under each reserved name, which stays if the webhook's own headers are other
ones, and under the other names what these say: the value of the entry that decides, or nothing. -/
structure Composed (c : SenderConfig) (s : Sender) (d : Delivery) (w : Webhook) (h : Headers) : Prop where
  reserved : ∀ n ∈ c.reservedNames, ∃ v, h.values n = [v] ∧
    ∀ own h', s.headers d { w with headers := own } = .ok h' → h'.values n = [v]
  own_iff : ∀ n, n ∉ c.reservedNames → ∀ v, h.values n = [v] ↔ ∃ key, w.Decides n key v
  none_iff : ∀ n, n ∉ c.reservedNames → (h.values n = [] ↔ ∀ key v, ¬ w.Offers n key v)

theorem values_reserved (made : make c = .ok s) (ok : s.headers d w = .ok h) {n : String} (hn : n ∈ c.reservedNames) :
    ∃ v, h.values n = [v] ∧ ∀ own h', s.headers d { w with headers := own } = .ok h' → h'.values n = [v] := by
  obtain ⟨k, hk, rfl⟩ := headers_ok ok
  have set : n ∈ (s.reservedHeaders d w k).map (·.1) := by
    have reserved := (mem_reservedNames made).mp hn
    simp only [fixedHeaders, laterHeaders, List.mem_cons, List.not_mem_nil, or_false] at reserved
    simp only [reservedHeaders, List.map_cons, List.map_nil, List.mem_cons, List.not_mem_nil, or_false]
    tauto
  obtain ⟨v, kept⟩ := Headers.get?_foldl_set_of_mem set
  refine ⟨v, values_of ok (kept _), fun own h' ok' => ?_⟩
  obtain ⟨k', hk', rfl⟩ := headers_ok ok'
  obtain rfl : k = k' := Bounded.ext_val (hk.trans hk'.symm)
  exact values_of ok' (kept _)

theorem values_unreserved (made : make c = .ok s) (ok : s.headers d w = .ok h) {n : String} (hn : n ∉ c.reservedNames) :
    h.values n = (w.header? n).toList := by
  obtain ⟨apart, free⟩ := not_or.mp ((mem_reservedNames made).not.mp hn)
  rw [Headers.values_eq (headers_ordered ok), get?_unreserved ok apart free]

theorem composed_of_ok (made : make c = .ok s) (ordered : w.headers.InOrder) (ok : s.headers d w = .ok h) :
    Composed c s d w h where
  reserved _ := values_reserved made ok
  own_iff n hn v := by
    rw [values_unreserved made ok hn, ← w.header?_eq_some_iff ordered]
    exact Option.toList_eq_singleton_iff
  none_iff n hn := by
    rw [values_unreserved made ok hn, ← w.header?_eq_none_iff]
    exact Option.toList_eq_nil_iff

/-- For a delivery that some policy allows another attempt, and no other is ever sent (`Worker.look_sending`), a request
has headers under every configuration that is accepted. They are composed of the reserved ones and of what the webhook's
own headers say; these are in order, whether they were read (`Json.parse_inOrder`) or registered
(`Json.ofTexts_inOrder`). Of a webhook that was registered with headers whose names differ by more than case, each that is
well-formed arrives as it is unless its name is reserved. -/
theorem headers_compose (made : make c = .ok s) {p : RetryPolicy} (below : d.attempts.val < p.maxAttempts.val) :
    (∀ w, w.headers.InOrder → ∃ h, s.headers d w = .ok h ∧ Composed c s d w h) ∧
    ∀ name url secret events own reg, Registration.make name url secret events own = .ok reg →
      (own.map fun e => e.1.toList.map Char.toLower).Nodup → ∀ id now, ∃ h, s.headers d (reg.toWebhook id now) = .ok h ∧
        ∀ e ∈ own, ∀ n, n ∉ c.reservedNames → Header.name? e.1 = some n → Header.isValue e.2 = true →
          h.values n = [e.2] := by
  have inRange : d.attempts.val < 2147483647 := Int.lt_of_lt_of_le below p.maxAttempts.le_hi
  have composes : ∀ w, w.headers.InOrder → ∃ h, s.headers d w = .ok h ∧ Composed c s d w h := by
    intro w ordered
    obtain ⟨h, ok⟩ := s.headers_total w inRange
    exact ⟨h, ok, composed_of_ok made ordered ok⟩
  refine ⟨composes, fun name url secret events own reg registered distinct id now => ?_⟩
  have given : (reg.toWebhook id now).headers = .ofTexts own := by
    obtain ⟨rfl, -, -⟩ := Registration.make_ok_iff.mp registered
    rfl
  obtain ⟨h, ok, composed⟩ := composes (reg.toWebhook id now) (given ▸ Json.ofTexts_inOrder own)
  refine ⟨h, ok, fun e he n free named legal => ?_⟩
  exact (composed.own_iff n free e.2).mpr ⟨e.1, Webhook.decides_of_distinct given distinct he named legal⟩

namespace Sample

def spelled : List (String × String) := [("x-blog", "b"), ("X-Blog", "c"), ("bad name", "d"), ("Content-Type", "e")]

theorem spelled_decides : (site "a" spelled).Decides "x-blog" "x-blog" "b" := by
  have distinct : (spelled.map (·.1)).Nodup := by decide +kernel
  refine ⟨⟨Json.holds_ofTexts distinct (.head _), by decide +kernel, by decide +kernel⟩, fun k v offers => ?_⟩
  have member := Json.mem_of_mem_texts (Json.mem_texts.mpr offers.1)
  have named := offers.2.1
  simp only [spelled, List.mem_cons, List.not_mem_nil, or_false, Prod.mk.injEq] at member
  rcases member with ⟨rfl, rfl⟩ | ⟨rfl, rfl⟩ | ⟨rfl, rfl⟩ | ⟨rfl, rfl⟩
  · exact .inl rfl
  · exact .inr (by decide +kernel)
  · exact absurd named (by decide +kernel)
  · exact absurd named (by decide +kernel)

end Sample

open Sample

theorem headers_compose_spelled : make (naming "X-Site") = .ok (named "x-site") ∧
    page.attempts.val < RetryPolicy.standard.maxAttempts.val ∧ (site "a" spelled).headers.InOrder ∧
    ∃ h, (named "x-site").headers page (site "a" spelled) = .ok h ∧
      h.values "x-blog" = ["b"] ∧ ∃ v, h.values "content-type" = [v] ∧
        ∀ h', (named "x-site").headers page { site "a" spelled with headers := .null } = .ok h' →
          h'.values "content-type" = [v] := by
  have made : make (naming "X-Site") = .ok (named "x-site") := make_naming (by decide +kernel)
  have ordered : (site "a" spelled).headers.InOrder := Json.ofTexts_inOrder spelled
  have below : page.attempts.val < RetryPolicy.standard.maxAttempts.val := by decide
  obtain ⟨h, ok, whole⟩ := (headers_compose made below).1 _ ordered
  obtain ⟨v, single, kept⟩ := whole.reserved "content-type" (by decide +kernel)
  exact ⟨made, below, ordered, h, ok, (whole.own_iff _ (by decide +kernel) "b").mpr ⟨_, spelled_decides⟩, v, single,
    kept .null⟩

end Sender

end Courier
