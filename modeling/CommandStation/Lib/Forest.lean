import CommandStation.Lib.Links

/-!
# Forests of depth one

Nodes carry a pointer `lead` to a root and a pointer `next` to another node. They form a forest of
depth one when every pointer `lead` ends at a root that has none itself, and the chain that starts
at a root's `next` visits exactly the nodes whose `lead` is that root. The lemmas are the four
changes a program makes to such a forest: a node without links joins or leaves, a node is appended
to a chain, a chain is dissolved.
-/

namespace CommandStation.Lib

variable {α : Type}

/-- The nodes `xs` are roots and the followers of roots. -/
structure Forest (xs : List α) (lead next : α → Option α) : Prop where
  root : ∀ a ∈ xs, ∀ l, lead a = some l → l ∈ xs ∧ lead l = none
  chain : ∀ l ∈ xs, lead l = none → ∃ zs, Links next (next l) zs ∧ zs.Nodup ∧
    ∀ a, a ∈ zs ↔ a ∈ xs ∧ lead a = some l

variable {xs : List α} {lead next lead' next' : α → Option α} {a l : α} {zs : List α}

theorem forest_nil : Forest [] lead next := ⟨by simp, by simp⟩

/-- The chain of root `l` is `zs`. -/
structure Forest.Chain (xs : List α) (lead next : α → Option α) (l : α) (zs : List α) : Prop where
  mem : l ∈ xs
  root : lead l = none
  links : Links next (next l) zs
  nodup : zs.Nodup
  visits : ∀ a, a ∈ zs ↔ a ∈ xs ∧ lead a = some l

theorem Forest.exists_chain (h : Forest xs lead next) (hl : l ∈ xs) (hroot : lead l = none) :
    ∃ zs, Chain xs lead next l zs := by
  obtain ⟨zs, hlinks, hnodup, hvisits⟩ := h.chain l hl hroot
  exact ⟨zs, hl, hroot, hlinks, hnodup, hvisits⟩

namespace Forest.Chain

theorem not_mem (h : Chain xs lead next l zs) : l ∉ zs := by
  intro hl
  have hlead := ((h.visits l).mp hl).2
  rw [h.root] at hlead
  cases hlead

theorem nodup_cons (h : Chain xs lead next l zs) : (l :: zs).Nodup :=
  List.nodup_cons.mpr ⟨h.not_mem, h.nodup⟩

theorem links_cons (h : Chain xs lead next l zs) : Links next (some l) (l :: zs) :=
  ⟨rfl, h.links⟩

theorem subset (h : Chain xs lead next l zs) : ∀ b ∈ l :: zs, b ∈ xs := by
  intro b hb
  rcases List.mem_cons.mp hb with rfl | hb
  · exact h.mem
  · exact ((h.visits b).mp hb).1

/-- The root is the only root on its chain. -/
theorem eq_root {b : α} (h : Chain xs lead next l zs) (hb : b ∈ l :: zs) (hroot : lead b = none) :
    b = l := by
  rcases List.mem_cons.mp hb with heq | hb
  · exact heq
  · rw [((h.visits b).mp hb).2] at hroot
    cases hroot

/-- The chains of two roots have no node in common. -/
theorem disjoint {k : α} {ys : List α} (hys : Chain xs lead next k ys)
    (hzs : Chain xs lead next l zs) (hne : k ≠ l) : ∀ b ∈ k :: ys, b ∉ l :: zs := by
  intro b hb hin
  cases hlead : lead b with
  | none => exact hne ((hys.eq_root hb hlead).symm.trans (hzs.eq_root hin hlead))
  | some r =>
    have hroot : ∀ {j : α} {ws : List α}, Chain xs lead next j ws → b ∈ j :: ws → r = j := by
      intro j ws hws hmem
      rcases List.mem_cons.mp hmem with rfl | hmem
      · rw [hws.root] at hlead
        cases hlead
      · exact Option.some.inj (hlead.symm.trans ((hws.visits b).mp hmem).2)
    exact hne ((hroot hys hb).symm.trans (hroot hzs hin))

/-- A chain without nodes. -/
theorem nil_iff (h : Chain xs lead next l zs) : zs = [] ↔ next l = none := by
  constructor
  · rintro rfl
    exact h.links
  · intro hnext
    have hlinks := h.links
    rw [hnext] at hlinks
    exact hlinks.unique rfl

end Forest.Chain

/-- A node without links has no followers. -/
theorem Forest.no_follower (h : Forest xs lead next) (ha : a ∈ xs) (hlead : lead a = none)
    (hnext : next a = none) : ∀ b ∈ xs, lead b ≠ some a := by
  intro b hb hba
  obtain ⟨zs, hzs⟩ := h.exists_chain ha hlead
  have hmem : b ∈ zs := (hzs.visits b).mpr ⟨hb, hba⟩
  rw [hzs.nil_iff.mpr hnext] at hmem
  cases hmem

/-- A chain whose nodes keep their links is the same chain of the new forest. -/
theorem Forest.Chain.congr {xs' : List α} (h : Chain xs lead next l zs)
    (hnext : ∀ b ∈ l :: zs, next' b = next b)
    (hvisits : ∀ b, b ∈ xs ∧ lead b = some l ↔ b ∈ xs' ∧ lead' b = some l) :
    ∃ zs, Links next' (next' l) zs ∧ zs.Nodup ∧ ∀ a, a ∈ zs ↔ a ∈ xs' ∧ lead' a = some l := by
  refine ⟨zs, ?_, h.nodup, fun b => (h.visits b).trans (hvisits b)⟩
  rw [hnext l List.mem_cons_self]
  exact h.links.congr fun b hb => hnext b (List.mem_cons_of_mem l hb)

/-- A node without links joins. -/
theorem Forest.create (h : Forest xs lead next) (ha : a ∉ xs) (hlead : lead' a = none)
    (hnext : next' a = none) (hlead' : ∀ b ∈ xs, lead' b = lead b)
    (hnext' : ∀ b ∈ xs, next' b = next b) : Forest (a :: xs) lead' next' := by
  constructor
  · intro b hb l hl
    rcases List.mem_cons.mp hb with rfl | hb
    · rw [hlead] at hl
      cases hl
    · rw [hlead' b hb] at hl
      obtain ⟨hmem, hroot⟩ := h.root b hb l hl
      exact ⟨List.mem_cons_of_mem a hmem, (hlead' l hmem).trans hroot⟩
  · intro l hl hroot
    rcases List.mem_cons.mp hl with rfl | hl
    · refine ⟨[], hnext, List.nodup_nil, fun b => ⟨(fun hb => by cases hb), ?_⟩⟩
      rintro ⟨hb, hbl⟩
      rcases List.mem_cons.mp hb with rfl | hb
      · rw [hlead] at hbl
        cases hbl
      · rw [hlead' b hb] at hbl
        exact absurd (h.root b hb _ hbl).1 ha
    · rw [hlead' l hl] at hroot
      obtain ⟨zs, hzs⟩ := h.exists_chain hl hroot
      refine hzs.congr (fun b hb => hnext' b (hzs.subset b hb)) ?_
      intro b
      constructor
      · rintro ⟨hb, hbl⟩
        exact ⟨List.mem_cons_of_mem a hb, (hlead' b hb).trans hbl⟩
      · rintro ⟨hb, hbl⟩
        rcases List.mem_cons.mp hb with rfl | hb
        · rw [hlead] at hbl
          cases hbl
        · exact ⟨hb, (hlead' b hb).symm.trans hbl⟩

/-- A node without links leaves. -/
theorem Forest.remove {xs' : List α} (h : Forest xs lead next) (ha : a ∈ xs)
    (hlead : lead a = none) (hnext : next a = none) (hxs' : ∀ b, b ∈ xs' ↔ b ∈ xs ∧ b ≠ a)
    (hlead' : ∀ b ∈ xs', lead' b = lead b) (hnext' : ∀ b ∈ xs', next' b = next b) :
    Forest xs' lead' next' := by
  have hno := h.no_follower ha hlead hnext
  constructor
  · intro b hb l hl
    rw [hlead' b hb] at hl
    have hbxs := ((hxs' b).mp hb).1
    obtain ⟨hmem, hroot⟩ := h.root b hbxs l hl
    have hl' : l ∈ xs' := (hxs' l).mpr ⟨hmem, fun heq => hno b hbxs (heq ▸ hl)⟩
    exact ⟨hl', (hlead' l hl').trans hroot⟩
  · intro l hl hroot
    rw [hlead' l hl] at hroot
    have hlxs := (hxs' l).mp hl
    obtain ⟨zs, hzs⟩ := h.exists_chain hlxs.1 hroot
    -- `a` follows nobody, so it is on no chain
    have hne : ∀ b ∈ l :: zs, b ∈ xs' := by
      intro b hb
      refine (hxs' b).mpr ⟨hzs.subset b hb, ?_⟩
      rintro rfl
      exact hlxs.2 (hzs.eq_root hb hlead).symm
    refine hzs.congr (fun b hb => hnext' b (hne b hb)) ?_
    intro b
    constructor
    · rintro ⟨hb, hbl⟩
      have hb' : b ∈ xs' := hne b (List.mem_cons_of_mem l ((hzs.visits b).mpr ⟨hb, hbl⟩))
      exact ⟨hb', (hlead' b hb').trans hbl⟩
    · rintro ⟨hb, hbl⟩
      exact ⟨((hxs' b).mp hb).1, (hlead' b hb).symm.trans hbl⟩

/-- A node without links is put behind the last node of a chain, or behind its root. -/
theorem Forest.Chain.snoc {tail : α} {ws : List α} (hzs : Chain xs lead next l zs)
    (htail : l :: zs = ws ++ [tail]) (ha : a ∈ xs) (haz : a ∉ l :: zs) (hnext : next a = none)
    (hlead' : lead' a = some l) (hleadSame : ∀ b, b ≠ a → lead' b = lead b)
    (hnext' : next' tail = some a) (hnextSame : ∀ b, b ≠ tail → next' b = next b) :
    Chain xs lead' next' l (zs ++ [a]) := by
  have hal : l ≠ a := fun heq => haz (heq ▸ List.mem_cons_self)
  have hatail : a ≠ tail := by
    intro heq
    apply haz
    rw [htail, heq]
    simp
  refine ⟨hzs.mem, (hleadSame l hal).trans hzs.root, ?_, ?_, ?_⟩
  · have hlinks := hzs.links_cons
    rw [htail] at hlinks
    have hnd := hzs.nodup_cons
    rw [htail, List.nodup_append] at hnd
    have hnew := hlinks.snoc hnext' ((hnextSame a hatail).trans hnext)
      fun c hc => hnextSame c fun heq => hnd.2.2 c hc tail (by simp) heq
    rw [← htail] at hnew
    exact hnew.2
  · refine List.nodup_append.mpr ⟨hzs.nodup, List.pairwise_singleton .., ?_⟩
    intro b hb c hc heq
    rw [List.mem_singleton.mp hc] at heq
    exact haz (heq ▸ List.mem_cons_of_mem l hb)
  · intro b
    rw [List.mem_append, List.mem_singleton]
    by_cases hb : b = a
    · subst hb
      simp [ha, hlead']
    · rw [hleadSame b hb, ← hzs.visits b]
      simp [hb]

/-- A node without links is appended to the chain of root `l`; `tail` is the last node of the
chain, or the root itself. -/
theorem Forest.append {tail : α} {ws : List α} (h : Forest xs lead next)
    (hzs : Chain xs lead next l zs) (htail : l :: zs = ws ++ [tail]) (ha : a ∈ xs)
    (hlead : lead a = none) (hnext : next a = none) (hal : a ≠ l) (hlead' : lead' a = some l)
    (hleadSame : ∀ b, b ≠ a → lead' b = lead b) (hnext' : next' tail = some a)
    (hnextSame : ∀ b, b ≠ tail → next' b = next b) :
    Forest xs lead' next' ∧ Chain xs lead' next' l (zs ++ [a]) := by
  have haz : a ∉ l :: zs := fun hin => hal (hzs.eq_root hin hlead)
  have hmemTail : tail ∈ l :: zs := by
    rw [htail]
    simp
  have hno := h.no_follower ha hlead hnext
  have hchain := hzs.snoc htail ha haz hnext hlead' hleadSame hnext' hnextSame
  refine ⟨⟨?_, ?_⟩, hchain⟩
  · intro b hb k hk
    by_cases hba : b = a
    · subst hba
      rw [hlead', Option.some.injEq] at hk
      subst hk
      exact ⟨hchain.mem, hchain.root⟩
    · rw [hleadSame b hba] at hk
      obtain ⟨hmem, hroot⟩ := h.root b hb k hk
      exact ⟨hmem, (hleadSame k fun heq => hno b hb (heq ▸ hk)).trans hroot⟩
  · intro k hk hroot
    by_cases hkl : k = l
    · subst hkl
      exact ⟨zs ++ [a], hchain.links, hchain.nodup, hchain.visits⟩
    · have hka : k ≠ a := by
        rintro rfl
        rw [hlead'] at hroot
        cases hroot
      rw [hleadSame k hka] at hroot
      obtain ⟨ys, hys⟩ := h.exists_chain hk hroot
      -- the tail is on the chain of `l`, and so on no other
      apply hys.congr
      · intro b hb
        exact hnextSame b fun heq => hys.disjoint hzs hkl b hb (heq ▸ hmemTail)
      · intro b
        by_cases hba : b = a
        · subst hba
          simp [hlead, hlead', Ne.symm hkl]
        · rw [hleadSame b hba]

/-- The chain of root `l` is dissolved. -/
theorem Forest.dissolve (h : Forest xs lead next) (hzs : Chain xs lead next l zs)
    (hlead : ∀ b ∈ l :: zs, lead' b = none) (hnext : ∀ b ∈ l :: zs, next' b = none)
    (hleadSame : ∀ b, b ∉ l :: zs → lead' b = lead b)
    (hnextSame : ∀ b, b ∉ l :: zs → next' b = next b) : Forest xs lead' next' := by
  -- nobody follows a node of the dissolved chain any more
  have hfree : ∀ b ∈ xs, ∀ k, lead' b = some k → lead b = some k ∧ k ∉ l :: zs := by
    intro b hb k hk
    have hbz : b ∉ l :: zs := fun hin => by rw [hlead b hin] at hk; cases hk
    rw [hleadSame b hbz] at hk
    refine ⟨hk, fun hin => ?_⟩
    rw [hzs.eq_root hin (h.root b hb k hk).2] at hk
    exact hbz (List.mem_cons_of_mem l ((hzs.visits b).mpr ⟨hb, hk⟩))
  constructor
  · intro b hb k hk
    obtain ⟨hk, hkz⟩ := hfree b hb k hk
    obtain ⟨hmem, hroot⟩ := h.root b hb k hk
    exact ⟨hmem, (hleadSame k hkz).trans hroot⟩
  · intro k hk hroot
    by_cases hkz : k ∈ l :: zs
    · refine ⟨[], hnext k hkz, List.nodup_nil, fun b => ⟨(fun hb => by cases hb), ?_⟩⟩
      rintro ⟨hb, hbk⟩
      exact absurd hkz (hfree b hb k hbk).2
    · rw [hleadSame k hkz] at hroot
      obtain ⟨ys, hys⟩ := h.exists_chain hk hroot
      have hout := hys.disjoint hzs fun heq => hkz (heq ▸ List.mem_cons_self)
      refine hys.congr (fun b hb => hnextSame b (hout b hb)) ?_
      intro b
      constructor
      · rintro ⟨hb, hbk⟩
        have hin : b ∈ k :: ys := List.mem_cons_of_mem k ((hys.visits b).mpr ⟨hb, hbk⟩)
        exact ⟨hb, (hleadSame b (hout b hin)).trans hbk⟩
      · rintro ⟨hb, hbk⟩
        exact ⟨hb, (hfree b hb k hbk).1⟩

end CommandStation.Lib
