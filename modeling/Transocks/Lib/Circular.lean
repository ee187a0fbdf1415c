import Mathlib.Data.List.Chain
import Mathlib.Tactic

/-!
# Circular doubly linked lists with a sentinel

The nodes are the sentinel `head` and one entry per key. `Links` is the memory: the `next` and
`prev` pointers of every node, `none` where a pointer is poisoned or was never written. The
operations are written down store by store; one that would follow a poisoned pointer fails.

`IsRing L l` says that the pointers run from the sentinel through the entries `l` and back. The
operations on such a ring are the ones on the list `l`, and `forEachSafe`, the walk that fetches its
next node before it runs the body, survives a body that unlinks the node it is at.
-/

namespace Circular

inductive Node (κ : Type*)
  | head
  | entry (k : κ)
  deriving DecidableEq

/-- The pointers of every node; `none` is a pointer that must not be followed. -/
structure Links (κ : Type*) where
  next : Node κ → Option (Node κ)
  prev : Node κ → Option (Node κ)

variable {κ : Type*}

namespace Links

variable [DecidableEq κ]

def setNext (L : Links κ) (a : Node κ) (p : Option (Node κ)) : Links κ :=
  { L with next := Function.update L.next a p }

def setPrev (L : Links κ) (a : Node κ) (p : Option (Node κ)) : Links κ :=
  { L with prev := Function.update L.prev a p }

/-- Make a node point to itself. -/
def init (L : Links κ) (a : Node κ) : Links κ := (L.setNext a (some a)).setPrev a (some a)

/-- Put `a` between the adjacent nodes `p` and `n`. -/
def insert (L : Links κ) (a p n : Node κ) : Links κ :=
  (((L.setPrev n (some a)).setNext a (some n)).setPrev a (some p)).setNext p (some a)

/-- Put the entry of `k` before the sentinel. -/
def addTail (L : Links κ) (k : κ) : Option (Links κ) :=
  (L.prev .head).map fun p => L.insert (.entry k) p .head

/-- Make `p` and `n` point to each other and poison the pointers of the entry of `k`. -/
def unlink (L : Links κ) (k : κ) (p n : Node κ) : Links κ :=
  (((L.setPrev n (some p)).setNext p (some n)).setNext (.entry k) none).setPrev (.entry k) none

/-- Take the entry of `k` out from between its neighbours. -/
def del (L : Links κ) (k : κ) : Option (Links κ) :=
  match L.prev (.entry k), L.next (.entry k) with
  | some p, some n => some (L.unlink k p n)
  | _, _ => none

end Links

/-- `b` follows `a`. -/
def Linked (L : Links κ) (a b : Node κ) : Prop := L.next a = some b ∧ L.prev b = some a

theorem chain_congr {L L' : Links κ} {xs : List (Node κ)} (h : xs.IsChain (Linked L))
    (hn : ∀ a ∈ xs.dropLast, L'.next a = L.next a) (hp : ∀ b ∈ xs.tail, L'.prev b = L.prev b) :
    xs.IsChain (Linked L') := by
  induction xs with
  | nil => exact .nil
  | cons a xs ih =>
    cases xs with
    | nil => exact .singleton a
    | cons b ys =>
      rw [List.isChain_cons_cons] at h ⊢
      refine ⟨⟨?_, ?_⟩, ih h.2 (fun x hx => hn x ?_) fun x hx => hp x ?_⟩
      · rw [hn a (by simp)]
        exact h.1.1
      · rw [hp b (by simp)]
        exact h.1.2
      · simp only [List.dropLast_cons_cons, List.mem_cons]
        exact .inr hx
      · exact List.mem_cons_of_mem b hx

/-- Every node of a chain but the last is followed by one. -/
theorem chain_succ {R : Node κ → Node κ → Prop} {xs : List (Node κ)} {a : Node κ}
    (h : xs.IsChain R) (ha : a ∈ xs.dropLast) : ∃ b ∈ xs.tail, R a b := by
  induction xs with
  | nil => cases ha
  | cons x xs ih =>
    cases xs with
    | nil => cases ha
    | cons y ys =>
      rw [List.isChain_cons_cons] at h
      rw [List.dropLast_cons_cons, List.mem_cons] at ha
      rcases ha with rfl | ha
      · exact ⟨y, List.mem_cons_self, h.1⟩
      · obtain ⟨b, hb, hab⟩ := ih h.2 ha
        exact ⟨b, List.mem_cons_of_mem y hb, hab⟩

/-- Every node of a chain but the first follows one. -/
theorem chain_pred {R : Node κ → Node κ → Prop} {xs : List (Node κ)} {b : Node κ}
    (h : xs.IsChain R) (hb : b ∈ xs.tail) : ∃ a ∈ xs.dropLast, R a b := by
  induction xs with
  | nil => cases hb
  | cons x xs ih =>
    cases xs with
    | nil => cases hb
    | cons y ys =>
      rw [List.isChain_cons_cons] at h
      rw [List.dropLast_cons_cons]
      rcases List.mem_cons.mp hb with rfl | hb
      · exact ⟨x, List.mem_cons_self, h.1⟩
      · obtain ⟨a, ha, hab⟩ := ih h.2 hb
        exact ⟨a, List.mem_cons_of_mem x ha, hab⟩

section Chain

variable {L : Links κ} {A B : List (Node κ)} {p n : Node κ} {k : κ}

theorem dropLast_middle (xs ys : List (Node κ)) (h : ys ≠ []) :
    (xs ++ ys).dropLast = xs ++ ys.dropLast := List.dropLast_append_of_ne_nil h

theorem tail_middle (xs ys : List (Node κ)) (a : Node κ) :
    (xs ++ a :: ys).tail = (xs ++ [a]).tail ++ ys := by
  cases xs <;> simp

variable [DecidableEq κ]

/-- Unlinking a node of a chain in which every node has one successor and one predecessor. -/
theorem chain_del (h : (A ++ p :: .entry k :: n :: B).IsChain (Linked L))
    (ha : (A ++ p :: .entry k :: n :: B).dropLast.Nodup)
    (hb : (A ++ p :: .entry k :: n :: B).tail.Nodup) :
    ∃ L', L.del k = some L' ∧ (A ++ p :: n :: B).IsChain (Linked L') := by
  rw [List.isChain_append_cons_cons] at h
  obtain ⟨hA, ⟨-, hkp⟩, hB⟩ := h
  rw [List.isChain_cons_cons] at hB
  obtain ⟨⟨hkn, -⟩, hB⟩ := hB
  rw [dropLast_middle _ _ (by simp)] at ha
  rw [tail_middle] at hb
  simp only [List.dropLast_cons_cons, List.nodup_append, List.nodup_cons, List.mem_cons,
    forall_eq_or_imp] at ha
  simp only [List.nodup_append, List.nodup_cons, List.mem_cons, forall_eq_or_imp] at hb
  obtain ⟨-, ⟨hpk, hkB, -⟩, hAx⟩ := ha
  obtain ⟨-, ⟨hkn', hnB, -⟩, hAy⟩ := hb
  rw [not_or] at hpk hkn'
  refine ⟨L.unlink k p n, by simp [Links.del, hkp, hkn], ?_⟩
  rw [List.isChain_append_cons_cons]
  refine ⟨chain_congr hA (fun a h => ?_) fun b h => ?_, ⟨?_, ?_⟩, chain_congr hB (fun a h => ?_)
    fun b h => ?_⟩
  · rw [List.dropLast_concat] at h
    have := hAx a h
    simp [Links.unlink, Links.setNext, Links.setPrev, Function.update_of_ne this.1,
      Function.update_of_ne this.2.1]
  · have := hAy b h
    simp [Links.unlink, Links.setNext, Links.setPrev, Function.update_of_ne this.1,
      Function.update_of_ne this.2.1]
  · simp [Links.unlink, Links.setNext, Links.setPrev, Function.update_of_ne hpk.1]
  · simp [Links.unlink, Links.setNext, Links.setPrev, Function.update_of_ne (Ne.symm hkn'.1)]
  · have h₁ : a ≠ p := fun he => hpk.2 (he ▸ h)
    have h₂ : a ≠ .entry k := fun he => hkB (he ▸ h)
    simp [Links.unlink, Links.setNext, Links.setPrev, Function.update_of_ne h₁,
      Function.update_of_ne h₂]
  · have h₁ : b ≠ n := fun he => hnB (he ▸ h)
    have h₂ : b ≠ .entry k := fun he => hkn'.2 (he ▸ h)
    simp [Links.unlink, Links.setNext, Links.setPrev, Function.update_of_ne h₁,
      Function.update_of_ne h₂]

/-- Linking a new node between two adjacent ones. -/
theorem chain_insert (h : (A ++ p :: n :: B).IsChain (Linked L))
    (ha : (A ++ p :: n :: B).dropLast.Nodup) (hb : (A ++ p :: n :: B).tail.Nodup)
    (hk : .entry k ∉ A ++ p :: n :: B) :
    (A ++ p :: .entry k :: n :: B).IsChain (Linked (L.insert (.entry k) p n)) := by
  rw [List.isChain_append_cons_cons] at h
  obtain ⟨hA, -, hB⟩ := h
  rw [dropLast_middle _ _ (by simp)] at ha
  rw [tail_middle] at hb
  simp only [List.dropLast_cons_cons, List.nodup_append, List.nodup_cons, List.mem_cons,
    forall_eq_or_imp] at ha
  simp only [List.nodup_append, List.nodup_cons, List.mem_cons, forall_eq_or_imp] at hb
  obtain ⟨-, ⟨hpB, -⟩, hAx⟩ := ha
  obtain ⟨-, ⟨hnB, -⟩, hAy⟩ := hb
  simp only [List.mem_append, List.mem_cons, not_or] at hk
  obtain ⟨hkA, hkp, hkn, hkB⟩ := hk
  rw [List.isChain_append_cons_cons, List.isChain_cons_cons]
  refine ⟨chain_congr hA (fun a h => ?_) fun b h => ?_, ⟨?_, ?_⟩, ⟨?_, ?_⟩,
    chain_congr hB (fun a h => ?_) fun b h => ?_⟩
  · rw [List.dropLast_concat] at h
    have h₁ := (hAx a h).1
    have h₂ : a ≠ .entry k := fun he => hkA (he ▸ h)
    simp [Links.insert, Links.setNext, Links.setPrev, Function.update_of_ne h₁,
      Function.update_of_ne h₂]
  · have h₁ := (hAy b h).1
    have h₂ : b ≠ .entry k := fun he => by
      rcases List.mem_append.mp (List.mem_of_mem_tail h) with h | h
      · exact hkA (he ▸ h)
      · exact hkp (he.symm.trans (List.mem_singleton.mp h))
    simp [Links.insert, Links.setNext, Links.setPrev, Function.update_of_ne h₁,
      Function.update_of_ne h₂]
  · simp [Links.insert, Links.setNext, Links.setPrev]
  · simp [Links.insert, Links.setNext, Links.setPrev]
  · simp [Links.insert, Links.setNext, Links.setPrev, Function.update_of_ne hkp]
  · simp [Links.insert, Links.setNext, Links.setPrev, Function.update_of_ne (Ne.symm hkn)]
  · have h₁ : a ≠ p := fun he => hpB (he ▸ h)
    have h₂ : a ≠ .entry k := fun he => by
      rcases List.mem_cons.mp (List.mem_of_mem_dropLast h) with h | h
      · exact hkn (he.symm.trans h)
      · exact hkB (he ▸ h)
    simp [Links.insert, Links.setNext, Links.setPrev, Function.update_of_ne h₁,
      Function.update_of_ne h₂]
  · have h₁ : b ≠ n := fun he => hnB (he ▸ h)
    have h₂ : b ≠ .entry k := fun he => hkB (he ▸ h)
    simp [Links.insert, Links.setNext, Links.setPrev, Function.update_of_ne h₁,
      Function.update_of_ne h₂]

end Chain

/-! ## Rings -/

/-- The nodes a ring with entries `l` runs through, from the sentinel to the sentinel. -/
def nodes (l : List κ) : List (Node κ) := .head :: (l.map .entry ++ [.head])

/-- The pointers run from the sentinel through the entries `l` and back. -/
structure IsRing (L : Links κ) (l : List κ) : Prop where
  nodup : l.Nodup
  chain : (nodes l).IsChain (Linked L)

section Ring

variable {L : Links κ} {l l₁ l₂ : List κ} {k : κ}

theorem nodup_entries (h : l.Nodup) : (l.map Node.entry).Nodup :=
  h.map fun _ _ h => Node.entry.inj h

theorem nodes_dropLast : (nodes l).dropLast = .head :: l.map .entry := by
  unfold nodes
  rw [← List.cons_append, List.dropLast_concat]

theorem nodes_dropLast_nodup (h : l.Nodup) : (nodes l).dropLast.Nodup := by
  rw [nodes_dropLast]
  exact List.nodup_cons.mpr ⟨by simp, nodup_entries h⟩

theorem nodes_tail_nodup (h : l.Nodup) : (nodes l).tail.Nodup := by
  refine List.nodup_append.mpr ⟨nodup_entries h, by simp, ?_⟩
  simp

theorem entry_mem_nodes : Node.entry k ∈ nodes l ↔ k ∈ l := by simp [nodes]

theorem entry_ne_of_mem {a : Node κ} (hk : k ∉ l) (ha : a ∈ nodes l) : a ≠ .entry k := fun he =>
  hk (entry_mem_nodes.mp (he ▸ ha))

def SameAt (L L' : Links κ) (a : Node κ) : Prop := L'.next a = L.next a ∧ L'.prev a = L.prev a

theorem Linked.self_same {L' : Links κ} {a : Node κ} (h : Linked L a a) (hs : SameAt L L' a) :
    Linked L' a a := ⟨hs.1.trans h.1, hs.2.trans h.2⟩

/-- A change to the pointers of nodes that are not in the ring. -/
theorem IsRing.congr {L' : Links κ} (h : IsRing L l) (hn : ∀ a ∈ nodes l, SameAt L L' a) :
    IsRing L' l :=
  ⟨h.nodup, chain_congr h.chain (fun a ha => (hn a (List.mem_of_mem_dropLast ha)).1)
    fun b hb => (hn b (List.mem_of_mem_tail hb)).2⟩

def first : List κ → Node κ
  | [] => .head
  | k :: _ => .entry k

theorem IsRing.next_head (h : IsRing L l) : L.next .head = some (first l) := by
  have hchain := h.chain
  cases l with
  | nil => exact (List.isChain_cons_cons.mp hchain).1.1
  | cons k l => exact (List.isChain_cons_cons.mp hchain).1.1

theorem IsRing.next_entry (h : IsRing L (l₁ ++ k :: l₂)) : L.next (.entry k) = some (first l₂) := by
  have hnodes : nodes (l₁ ++ k :: l₂) =
      (Node.head :: l₁.map Node.entry) ++ .entry k :: (l₂.map Node.entry ++ [.head]) := by
    simp [nodes]
  have hchain := h.chain
  rw [hnodes] at hchain
  cases l₂ with
  | nil => exact (List.isChain_append_cons_cons.mp hchain).2.1.1
  | cons k' l => exact (List.isChain_append_cons_cons.mp hchain).2.1.1

theorem IsRing.next_first (h : IsRing L (k :: l)) : L.next (.entry k) = some (first l) := by
  rw [← List.nil_append (k :: l)] at h
  exact h.next_entry

/-- Two rings that go on from the same nodes are the same from there on. -/
theorem IsRing.unique_suffix {l' pre : List κ} (h : IsRing L (pre ++ l))
    (h' : IsRing L (pre ++ l')) : l = l' := by
  have hfirst : first l = first l' := by
    rcases List.eq_nil_or_concat pre with rfl | ⟨pre, k, rfl⟩
    · exact Option.some.inj (h.next_head.symm.trans h'.next_head)
    · rw [List.concat_eq_append, List.append_assoc] at h h'
      exact Option.some.inj (h.next_entry.symm.trans h'.next_entry)
  induction l generalizing pre l' with
  | nil =>
    cases l' with
    | nil => rfl
    | cons k l' => cases hfirst
  | cons k l ih =>
    cases l' with
    | nil => cases hfirst
    | cons k' l' =>
      obtain rfl := Node.entry.inj hfirst
      rw [List.append_cons] at h h'
      have hnext : L.next (.entry k) = some (first l) := by
        rw [List.append_assoc] at h
        exact h.next_entry
      have hnext' : L.next (.entry k) = some (first l') := by
        rw [List.append_assoc] at h'
        exact h'.next_entry
      rw [ih h h' (Option.some.inj (hnext.symm.trans hnext'))]

theorem IsRing.unique {l' : List κ} (h : IsRing L l) (h' : IsRing L l') : l = l' := by
  have hpre : IsRing L ([] ++ l) := h
  exact hpre.unique_suffix h'

theorem mem_nodes_dropLast {a : Node κ} : a ∈ (nodes l).dropLast ↔ a ∈ nodes l := by
  rw [nodes_dropLast]
  simp only [nodes, List.mem_cons, List.mem_append, List.not_mem_nil, or_false]
  tauto

theorem mem_nodes_tail {a : Node κ} : a ∈ (nodes l).tail ↔ a ∈ nodes l := by
  simp only [nodes, List.tail_cons, List.mem_cons, List.mem_append, List.not_mem_nil, or_false]
  tauto

theorem IsRing.succ {a : Node κ} (h : IsRing L l) (ha : a ∈ nodes l) :
    ∃ b ∈ nodes l, Linked L a b := by
  obtain ⟨b, hb, hab⟩ := chain_succ h.chain (mem_nodes_dropLast.mpr ha)
  exact ⟨b, List.mem_of_mem_tail hb, hab⟩

theorem IsRing.pred {b : Node κ} (h : IsRing L l) (hb : b ∈ nodes l) :
    ∃ a ∈ nodes l, Linked L a b := by
  obtain ⟨a, ha, hab⟩ := chain_pred h.chain (mem_nodes_tail.mpr hb)
  exact ⟨a, List.mem_of_mem_dropLast ha, hab⟩

/-- The entries of a ring and their order say what its pointers are. -/
theorem IsRing.sameAt {L' : Links κ} {a : Node κ} (h : IsRing L l) (h' : IsRing L' l)
    (ha : a ∈ nodes l) : SameAt L L' a := by
  have hboth : (nodes l).IsChain fun a b => Linked L a b ∧ Linked L' a b :=
    List.isChain_iff_getElem.mpr fun i hi =>
      ⟨List.isChain_iff_getElem.mp h.chain i hi, List.isChain_iff_getElem.mp h'.chain i hi⟩
  obtain ⟨b, -, hab, hab'⟩ := chain_succ hboth (mem_nodes_dropLast.mpr ha)
  obtain ⟨b', -, hba, hba'⟩ := chain_pred hboth (mem_nodes_tail.mpr ha)
  exact ⟨hab'.1.trans hab.1.symm, hba'.2.trans hba.2.symm⟩

/-- On a ring `next` and `prev` are inverse to each other. -/
theorem IsRing.inverse {a b : Node κ} (h : IsRing L l) (ha : a ∈ nodes l) (hb : b ∈ nodes l) :
    L.next a = some b ↔ L.prev b = some a := by
  constructor
  · intro hab
    obtain ⟨b', -, hn, hp⟩ := h.succ ha
    obtain rfl := Option.some.inj (hn.symm.trans hab)
    exact hp
  · intro hab
    obtain ⟨a', -, hn, hp⟩ := h.pred hb
    obtain rfl := Option.some.inj (hp.symm.trans hab)
    exact hn

variable [DecidableEq κ]

theorem isRing_nil (L : Links κ) : IsRing (L.init .head) [] := by
  refine ⟨List.nodup_nil, ?_⟩
  simp [nodes, Linked, Links.init, Links.setNext, Links.setPrev]

theorem sameAt_init {a : Node κ} (ha : a ≠ .entry k) : SameAt L (L.init (.entry k)) a := by
  simp [SameAt, Links.init, Links.setNext, Links.setPrev, Function.update_of_ne ha]

theorem IsRing.init (h : IsRing L l) (hk : k ∉ l) : IsRing (L.init (.entry k)) l :=
  h.congr fun _ ha => sameAt_init (entry_ne_of_mem hk ha)

theorem init_linked (L : Links κ) (a : Node κ) : Linked (L.init a) a a := by
  simp [Linked, Links.init, Links.setNext, Links.setPrev]

/-- Unlinking an entry that only points to itself writes to nothing else. -/
theorem del_self (hk : Linked L (.entry k) (.entry k)) :
    ∃ L', L.del k = some L' ∧ ∀ a, a ≠ .entry k → SameAt L L' a := by
  refine ⟨L.unlink k (.entry k) (.entry k), by simp [Links.del, hk.1, hk.2], fun a ha => ?_⟩
  simp [SameAt, Links.unlink, Links.setNext, Links.setPrev, Function.update_of_ne ha]

theorem IsRing.del_lone (h : IsRing L l) (hk : k ∉ l) :
    ∃ L', (L.init (.entry k)).del k = some L' ∧ IsRing L' l := by
  obtain ⟨L', hdel, hsame⟩ := del_self (init_linked L (.entry k))
  exact ⟨L', hdel, (h.init hk).congr fun a ha => hsame a (entry_ne_of_mem hk ha)⟩

/-- **Adding at the tail.** -/
theorem IsRing.addTail (h : IsRing L l) (hk : k ∉ l) :
    ∃ L', L.addTail k = some L' ∧ IsRing L' (l ++ [k]) := by
  obtain ⟨A, p, hA⟩ : ∃ A p, Node.head :: l.map Node.entry = A ++ [p] :=
    ⟨_, _, (List.dropLast_append_getLast (List.cons_ne_nil _ _)).symm⟩
  have hnodes : nodes l = A ++ p :: .head :: [] := by
    unfold nodes
    rw [← List.cons_append, hA, List.append_assoc]
    rfl
  have hchain := h.chain
  rw [hnodes, List.isChain_append_cons_cons] at hchain
  refine ⟨L.insert (.entry k) p .head, by simp [Links.addTail, hchain.2.1.2], ?_, ?_⟩
  · exact List.nodup_append.mpr ⟨h.nodup, by simp, by
      intro a ha b hb
      rw [List.mem_singleton.mp hb]
      rintro rfl
      exact hk ha⟩
  · have hins := chain_insert (k := k) (hnodes ▸ h.chain) (hnodes ▸ nodes_dropLast_nodup h.nodup)
      (hnodes ▸ nodes_tail_nodup h.nodup) (hnodes ▸ fun hm => hk (entry_mem_nodes.mp hm))
    have hnodes' : nodes (l ++ [k]) = A ++ p :: .entry k :: .head :: [] := by
      have hsplit : nodes (l ++ [k]) = (Node.head :: l.map Node.entry) ++ [.entry k, .head] := by
        simp [nodes]
      rw [hsplit, hA, List.append_assoc]
      rfl
    rw [hnodes']
    exact hins

/-- **Unlinking an entry of the ring.** -/
theorem IsRing.del (h : IsRing L (l₁ ++ k :: l₂)) :
    ∃ L', L.del k = some L' ∧ IsRing L' (l₁ ++ l₂) := by
  obtain ⟨A, p, hA⟩ : ∃ A p, Node.head :: l₁.map Node.entry = A ++ [p] :=
    ⟨_, _, (List.dropLast_append_getLast (List.cons_ne_nil _ _)).symm⟩
  obtain ⟨n, B, hB⟩ : ∃ n B, l₂.map Node.entry ++ [.head] = n :: B :=
    List.exists_cons_of_ne_nil (by simp)
  have hnodes : nodes (l₁ ++ k :: l₂) = A ++ p :: .entry k :: n :: B := by
    have hsplit : nodes (l₁ ++ k :: l₂) =
        (Node.head :: l₁.map Node.entry) ++ .entry k :: (l₂.map Node.entry ++ [.head]) := by
      simp [nodes]
    rw [hsplit, hA, hB, List.append_assoc]
    rfl
  have hnodes' : nodes (l₁ ++ l₂) = A ++ p :: n :: B := by
    have hsplit : nodes (l₁ ++ l₂) =
        (Node.head :: l₁.map Node.entry) ++ (l₂.map Node.entry ++ [.head]) := by
      simp [nodes]
    rw [hsplit, hA, hB, List.append_assoc]
    rfl
  obtain ⟨L', hdel, hchain⟩ := chain_del (hnodes ▸ h.chain)
    (hnodes ▸ nodes_dropLast_nodup h.nodup) (hnodes ▸ nodes_tail_nodup h.nodup)
  refine ⟨L', hdel, ?_, hnodes' ▸ hchain⟩
  exact h.nodup.sublist ((List.Sublist.refl l₁).append (List.sublist_cons_self k l₂))

/-! ### What the operations leave alone -/

section Frame

variable {L' : Links κ} {a : Node κ}

/-- Only the sentinel, the last entry and the new one are written to. -/
theorem IsRing.addTail_frame (h : IsRing L l) (hL : L.addTail k = some L') (ha : a ≠ .entry k)
    (hout : a ∉ nodes l) : SameAt L L' a := by
  obtain ⟨p, hp, -, hprev⟩ := h.pred (b := .head) (by simp [nodes])
  have hap : a ≠ p := fun he => hout (he ▸ hp)
  have hah : a ≠ .head := fun he => hout (by simp [he, nodes])
  simp only [Links.addTail, hprev, Option.map_some, Option.some.injEq] at hL
  subst hL
  simp [SameAt, Links.insert, Links.setNext, Links.setPrev, Function.update_of_ne ha,
    Function.update_of_ne hap, Function.update_of_ne hah]

/-- Only an entry and its neighbours are written to when it is unlinked. -/
theorem IsRing.del_frame (h : IsRing L l) (hk : k ∈ l) (hL : L.del k = some L')
    (hout : a ∉ nodes l) : SameAt L L' a := by
  have hmem : Node.entry k ∈ nodes l := entry_mem_nodes.mpr hk
  obtain ⟨p, hp, -, hprev⟩ := h.pred hmem
  obtain ⟨n, hn, hnext, -⟩ := h.succ hmem
  have hap : a ≠ p := fun he => hout (he ▸ hp)
  have han : a ≠ n := fun he => hout (he ▸ hn)
  have hak : a ≠ .entry k := fun he => hout (he ▸ hmem)
  simp only [Links.del, hprev, hnext, Option.some.injEq] at hL
  subst hL
  simp [SameAt, Links.unlink, Links.setNext, Links.setPrev, Function.update_of_ne hap,
    Function.update_of_ne han, Function.update_of_ne hak]

end Frame

end Ring

/-! ## The safe walk -/

section Walk

variable {σ : Type*} (links : σ → Links κ) (body : κ → σ → Option σ)

/-- The loop of a walk at `pos` that has already fetched the node `n` after it. It ends with the
state and the keys it visited; it has no result when it runs out of fuel, when the body fails or
when it would follow a poisoned pointer. -/
def walk : ℕ → Node κ → Node κ → σ → Option (σ × List κ)
  | 0, _, _, _ => none
  | _ + 1, .head, _, s => some (s, [])
  | fuel + 1, .entry k, n, s =>
    (body k s).bind fun s' => ((links s').next n).bind fun n' =>
      (walk fuel n n' s').map fun r => (r.1, k :: r.2)

/-- Visit every entry of the ring, fetching the next node before the body runs. -/
def forEachSafe (fuel : ℕ) (s : σ) : Option (σ × List κ) :=
  ((links s).next .head).bind fun pos => ((links s).next pos).bind fun n =>
    walk links body fuel pos n s

variable {links body} {P : List κ → List κ → σ → Prop}

theorem walk_mono {fuel fuel' : ℕ} {pos n : Node κ} {s : σ} {r : σ × List κ} (hle : fuel ≤ fuel')
    (h : walk links body fuel pos n s = some r) : walk links body fuel' pos n s = some r := by
  induction fuel generalizing fuel' pos n s r with
  | zero => cases h
  | succ fuel ih =>
    obtain ⟨fuel', rfl⟩ : ∃ f, fuel' = f + 1 := ⟨fuel' - 1, by omega⟩
    cases pos with
    | head => exact h
    | entry k =>
      simp only [walk, Option.bind_eq_some_iff, Option.map_eq_some_iff] at h ⊢
      obtain ⟨s', hs, n', hn, r', hr, he⟩ := h
      exact ⟨s', hs, n', hn, r', ih (by omega) hr, he⟩

/-- The result of a walk does not depend on the fuel. -/
theorem forEachSafe_unique {fuel fuel' : ℕ} {s : σ} {r r' : σ × List κ}
    (h : forEachSafe links body fuel s = some r) (h' : forEachSafe links body fuel' s = some r') :
    r = r' := by
  simp only [forEachSafe, Option.bind_eq_some_iff] at h h'
  obtain ⟨pos, hpos, n, hn, hw⟩ := h
  obtain ⟨pos', hpos', n', hn', hw'⟩ := h'
  obtain rfl := Option.some.inj (hpos.symm.trans hpos')
  obtain rfl := Option.some.inj (hn.symm.trans hn')
  have hmax := walk_mono (le_max_left fuel fuel') hw
  have hmax' := walk_mono (le_max_right fuel fuel') hw'
  exact Option.some.inj (hmax.symm.trans hmax')

/-- **The safe walk.** `P kept rest s` describes the state when the entries `kept` were visited and
stayed in the ring and the entries `rest` are still to come. When the body, run on the first of
`rest`, fails nowhere and leaves the rest of the ring alone, whether it unlinks its entry or not,
the walk ends and has visited every entry once, in order. -/
theorem walk_visits (hring : ∀ kept rest s, P kept rest s → IsRing (links s) (kept ++ rest))
    (hbody : ∀ kept k rest s, P kept (k :: rest) s →
      ∃ s', body k s = some s' ∧ (P kept rest s' ∨ P (kept ++ [k]) rest s'))
    {kept rest : List κ} {s : σ} (hP : P kept rest s) {n : Node κ}
    (hn : (links s).next (first rest) = some n) :
    ∃ s' kept', walk links body (rest.length + 1) (first rest) n s = some (s', rest) ∧
      P kept' [] s' := by
  induction rest generalizing kept s n with
  | nil => exact ⟨s, kept, rfl, hP⟩
  | cons k rest ih =>
    obtain ⟨s', hs', hP'⟩ := hbody kept k rest s hP
    obtain rfl : first rest = n := Option.some.inj ((hring _ _ _ hP).next_entry.symm.trans hn)
    obtain ⟨kept', hkept⟩ : ∃ kept', P kept' rest s' := hP'.elim (fun h => ⟨_, h⟩) fun h => ⟨_, h⟩
    have hnext : ∃ n', (links s').next (first rest) = some n' := by
      cases rest with
      | nil => exact ⟨_, (hring _ _ _ hkept).next_head⟩
      | cons k' rest => exact ⟨_, (hring _ _ _ hkept).next_entry⟩
    obtain ⟨n', hn'⟩ := hnext
    obtain ⟨s'', kept'', hwalk, hP''⟩ := ih hkept hn'
    refine ⟨s'', kept'', ?_, hP''⟩
    show walk links body (rest.length + 1 + 1) (.entry k) (first rest) s = _
    simp [walk, hs', hn', hwalk]

theorem forEachSafe_visits (hring : ∀ kept rest s, P kept rest s → IsRing (links s) (kept ++ rest))
    (hbody : ∀ kept k rest s, P kept (k :: rest) s →
      ∃ s', body k s = some s' ∧ (P kept rest s' ∨ P (kept ++ [k]) rest s'))
    {l : List κ} {s : σ} (hP : P [] l s) :
    ∃ s' kept, forEachSafe links body (l.length + 1) s = some (s', l) ∧ P kept [] s' := by
  have hr := hring _ _ _ hP
  rw [List.nil_append] at hr
  have hnext : ∃ n, (links s).next (first l) = some n := by
    cases l with
    | nil => exact ⟨_, hr.next_head⟩
    | cons k l => exact ⟨_, hr.next_first⟩
  obtain ⟨n, hn⟩ := hnext
  obtain ⟨s', kept, hwalk, hP'⟩ := walk_visits hring hbody hP hn
  exact ⟨s', kept, by simp [forEachSafe, hr.next_head, hn, hwalk], hP'⟩

/-- What the body keeps, the walk keeps. -/
theorem walk_keeps {J : σ → Prop} (hbody : ∀ k s s', J s → body k s = some s' → J s')
    {fuel : ℕ} {pos n : Node κ} {s : σ} {r : σ × List κ} (hJ : J s)
    (h : walk links body fuel pos n s = some r) : J r.1 := by
  induction fuel generalizing pos n s r with
  | zero => cases h
  | succ fuel ih =>
    cases pos with
    | head =>
      obtain rfl := Option.some.inj h
      exact hJ
    | entry k =>
      simp only [walk, Option.bind_eq_some_iff, Option.map_eq_some_iff] at h
      obtain ⟨s', hs, n', -, r', hr, rfl⟩ := h
      have hr' : J r'.1 := ih (hbody k s s' hJ hs) hr
      exact hr'

theorem forEachSafe_keeps {J : σ → Prop} (hbody : ∀ k s s', J s → body k s = some s' → J s')
    {fuel : ℕ} {s : σ} {r : σ × List κ} (hJ : J s)
    (h : forEachSafe links body fuel s = some r) : J r.1 := by
  simp only [forEachSafe, Option.bind_eq_some_iff] at h
  obtain ⟨pos, -, n, -, hw⟩ := h
  exact walk_keeps hbody hJ hw

section Observed

variable {τ : Type*} {links' : τ → Links κ} {body' : κ → τ → Option τ} {π : σ → τ}

theorem walk_map (hlinks : ∀ s, links' (π s) = links s)
    (hmap : ∀ k s s', body k s = some s' → body' k (π s) = some (π s')) {fuel : ℕ}
    {pos n : Node κ} {s : σ} {r : σ × List κ} (h : walk links body fuel pos n s = some r) :
    walk links' body' fuel pos n (π s) = some (π r.1, r.2) := by
  induction fuel generalizing pos n s r with
  | zero => cases h
  | succ fuel ih =>
    cases pos with
    | head =>
      obtain rfl := Option.some.inj h
      rfl
    | entry k =>
      simp only [walk, Option.bind_eq_some_iff, Option.map_eq_some_iff] at h ⊢
      obtain ⟨s', hs, n', hn, r', hr, rfl⟩ := h
      exact ⟨π s', hmap k s s' hs, n', by rw [hlinks, hn], _, ih hr, rfl⟩

/-- A walk that keeps more in its state does what the walk without it does. -/
theorem forEachSafe_map (hlinks : ∀ s, links' (π s) = links s)
    (hmap : ∀ k s s', body k s = some s' → body' k (π s) = some (π s')) {fuel : ℕ} {s : σ}
    {r : σ × List κ} (h : forEachSafe links body fuel s = some r) :
    forEachSafe links' body' fuel (π s) = some (π r.1, r.2) := by
  simp only [forEachSafe, Option.bind_eq_some_iff, hlinks] at h ⊢
  obtain ⟨pos, hpos, n, hn, hw⟩ := h
  exact ⟨pos, hpos, n, hn, walk_map hlinks hmap hw⟩

end Observed

end Walk

/-! ## The plain walk -/

section Collect

variable {β : Type*} (L : Links κ) (body : ℕ → κ → Option β)

/-- The loop of a walk at `pos` whose body only reads: the results of the body, which also gets the
number of the visit. -/
def collect : ℕ → Node κ → ℕ → Option (List β)
  | 0, _, _ => none
  | _ + 1, .head, _ => some []
  | fuel + 1, .entry k, i =>
    (body i k).bind fun r => (L.next (.entry k)).bind fun n =>
      (collect fuel n (i + 1)).map fun rs => r :: rs

/-- Visit every entry of the ring. -/
def forEach (fuel : ℕ) : Option (List β) :=
  (L.next .head).bind fun pos => collect L body fuel pos 0

variable {L body} {l pre : List κ} {rs : List β}

theorem collect_visits {i : ℕ} (h : IsRing L (pre ++ l))
    (hbody : List.Forall₂ (fun x r => body x.2 x.1 = some r) (l.zipIdx i) rs) :
    collect L body (l.length + 1) (first l) i = some rs := by
  induction l generalizing pre i rs with
  | nil =>
    cases hbody
    rfl
  | cons k l ih =>
    rw [List.zipIdx_cons] at hbody
    cases hbody with
    | cons hk hl =>
      have hnext : L.next (.entry k) = some (first l) := h.next_entry
      rw [List.append_cons] at h
      show (body i k).bind _ = _
      simp [hk, hnext, ih h hl]

/-- **The plain walk** of a ring visits every entry once, in order. -/
theorem IsRing.forEach (h : IsRing L l)
    (hbody : List.Forall₂ (fun x r => body x.2 x.1 = some r) l.zipIdx rs) :
    forEach L body (l.length + 1) = some rs := by
  have hring : IsRing L ([] ++ l) := h
  have hwalk := collect_visits hring hbody
  simp [Circular.forEach, h.next_head, hwalk]

end Collect

end Circular
