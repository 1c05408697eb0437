import CommandStation.DCCConsist.Forest

/-!
# What the consist operations do

Every operation of `DCCConsist` keeps the lists of the table and the forest of consists, and comes
to an end. `parse` is the one that can fail on the way: it uses the slots it asks for without
looking, so it needs `Room` in the table for the locos that have no slot yet.
-/

namespace CommandStation

open CommandStation.Lib LocoTable DCCConsist

variable {F : Fault → Prop} {t : LocoTable} {xs ys zs : List Addr} {a b l : Addr}
  {busy : Option Addr}

/-! ## Room in the table -/

/-- How many of the locos have no slot yet. -/
def needed (t : LocoTable) (xs : List Addr) (ids : List UInt16) : Nat :=
  (ids.filter fun id => xs.all fun a => (t.mem a).loco != id).length

/-- There is room in the table for the locos that have no slot yet. -/
def Room (t : LocoTable) (xs : List Addr) (ids : List UInt16) : Prop :=
  xs.length + needed t xs ids ≤ t.maxLocos

instance (t : LocoTable) (xs : List Addr) (ids : List UInt16) : Decidable (Room t xs ids) :=
  inferInstanceAs (Decidable (_ ≤ _))

section Room

variable {id : UInt16} {ids : List UInt16} {t' : LocoTable}

theorem needed_cons_of_found (ha : a ∈ xs) (hid : (t.mem a).loco = id) :
    needed t xs (id :: ids) = needed t xs ids := by
  have hno : (xs.all fun a => (t.mem a).loco != id) = false := by
    rw [List.all_eq_false]
    exact ⟨a, ha, by simp [hid]⟩
  simp [needed, hno]

theorem needed_cons_of_new (hno : ∀ b ∈ xs, (t.mem b).loco ≠ id) :
    needed t xs (id :: ids) = needed t xs ids + 1 := by
  have hall : (xs.all fun a => (t.mem a).loco != id) = true := by
    rw [List.all_eq_true]
    exact fun b hb => by simpa using hno b hb
  simp [needed, hall]

theorem needed_congr (ids : List UInt16) (h : ∀ b ∈ xs, (t'.mem b).loco = (t.mem b).loco) :
    needed t' xs ids = needed t xs ids := by
  unfold needed
  congr 2
  funext id
  rw [Bool.eq_iff_iff, List.all_eq_true, List.all_eq_true]
  exact forall₂_congr fun b hb => by rw [h b hb]

/-- A new slot is none for the locos that are still to come. -/
theorem needed_created (h : ∀ b ∈ xs, (t'.mem b).loco = (t.mem b).loco)
    (ha : ∀ id ∈ ids, (t'.mem a).loco ≠ id) : needed t' (a :: xs) ids = needed t xs ids := by
  rw [← needed_congr ids h, needed, needed]
  congr 1
  refine List.filter_congr fun id hid => ?_
  simp [ha id hid]

theorem room_nil (h : Lists t xs ys) : Room t xs [] := by
  have hcount := h.count
  have hbound := h.bound
  rw [List.length_append] at hcount
  show xs.length + 0 ≤ t.maxLocos
  omega

theorem room_congr (ids : List UInt16) (h : ∀ b ∈ xs, (t'.mem b).loco = (t.mem b).loco)
    (hmax : t'.maxLocos = t.maxLocos) : Room t' xs ids ↔ Room t xs ids := by
  rw [Room, Room, hmax, needed_congr ids h]

theorem room_cons_of_found (ha : a ∈ xs) (hid : (t.mem a).loco = id) :
    Room t xs ids ↔ Room t xs (id :: ids) := by
  rw [Room, Room, needed_cons_of_found ha hid]

theorem not_room_of_full (hno : ∀ b ∈ xs, (t.mem b).loco ≠ id) (hfull : xs.length = t.maxLocos) :
    ¬ Room t xs (id :: ids) := by
  rw [Room, needed_cons_of_new hno]
  omega

/-- The slot that is created is one of those there had to be room for. -/
theorem room_cons_of_created (hno : ∀ b ∈ xs, (t.mem b).loco ≠ id) (ht' : Created t xs id a t')
    (hids : id ∉ ids) : Room t' (a :: xs) ids ↔ Room t xs (id :: ids) := by
  have hkeep : ∀ b ∈ xs, (t'.mem b).loco = (t.mem b).loco := fun b hb =>
    congrArg LocoSlot.loco (ht'.mem_inUse b hb)
  rw [Room, Room, needed_cons_of_new hno, ht'.maxLocos, List.length_cons,
    needed_created hkeep fun i hi heq => hids (ht'.loco ▸ heq ▸ hi)]
  omega

end Room

/-! ## The checks of `parse` -/

/-- The ids are valid and different. -/
structure ValidIds (ps : List Int16) : Prop where
  low : ∀ p ∈ ps, locoIdOf p ≠ 0
  high : ∀ p ∈ ps, locoIdOf p ≤ highestLocoId
  nodup : (ps.map locoIdOf).Nodup

/-- Ids that pass the check are in range and different. -/
theorem checkLocoIds_eq_none {ps : List Int16} (h : checkLocoIds ps = none) : ValidIds ps := by
  induction ps with
  | nil => exact ⟨by simp, by simp, by simp⟩
  | cons p rest ih =>
    simp only [checkLocoIds] at h
    split at h
    · cases h
    · next hrange =>
      split at h
      · cases h
      · next hdup =>
        obtain ⟨hlow, hhigh, hnodup⟩ := ih h
        rw [not_or, UInt16.not_lt, UInt16.not_lt] at hrange
        have hp0 : locoIdOf p ≠ 0 := by
          intro h0
          rw [h0] at hrange
          exact absurd hrange.1 (by decide)
        refine ⟨?_, ?_, ?_⟩
        · exact List.forall_mem_cons.mpr ⟨hp0, hlow⟩
        · exact List.forall_mem_cons.mpr ⟨hrange.2, hhigh⟩
        · refine List.nodup_cons.mpr ⟨?_, hnodup⟩
          simpa using hdup

theorem ValidIds.tail {p : Int16} {ps : List Int16} (h : ValidIds (p :: ps)) : ValidIds ps :=
  ⟨fun q hq => h.low q (List.mem_cons_of_mem p hq), fun q hq => h.high q (List.mem_cons_of_mem p hq),
    (List.nodup_cons.mp h.nodup).2⟩

theorem ValidIds.head_not_mem {p : Int16} {ps : List Int16} (h : ValidIds (p :: ps)) :
    locoIdOf p ∉ ps.map locoIdOf :=
  (List.nodup_cons.mp h.nodup).1

theorem ValidIds.head_ne {p q : Int16} {ps : List Int16} (h : ValidIds (p :: ps)) (hq : q ∈ ps) :
    locoIdOf p ≠ locoIdOf q :=
  fun heq => h.head_not_mem (heq ▸ List.mem_map_of_mem hq)

/-- The slots of these locos, as far as they have one, are in no consist. -/
def Free (t : LocoTable) (xs : List Addr) (ps : List Int16) : Prop :=
  ∀ p ∈ ps, ∀ a ∈ xs, (t.mem a).loco = locoIdOf p → t.Loose a

/-- `findConsisted` looks at the slots of the locos only, and finds one that is not free. -/
theorem findConsisted_spec (h : Lists t xs ys) (ps : List Int16) :
    wp F (findConsisted ps) (fun r t' => t' = t ∧ (r = none ↔ Free t xs ps)) t := by
  induction ps with
  | nil => exact ⟨rfl, by simp [Free]⟩
  | cons p rest ih =>
    simp only [findConsisted, wp_bind]
    have hcons : ∀ {r}, (∀ a ∈ xs, (t.mem a).loco = locoIdOf p → t.Loose a) →
        (r = none ↔ Free t xs rest) → (r = (none : Option Int16) ↔ Free t xs (p :: rest)) := by
      intro r hp hr
      rw [hr]
      exact ⟨fun hf => List.forall_mem_cons.mpr ⟨hp, hf⟩, fun hf => (List.forall_mem_cons.mp hf).2⟩
    refine wp_findSlot h (fun hno => ?_) fun a ha hloco => ?_
    · refine wp_mono ih fun r t' hr => ⟨hr.1, hcons ?_ hr.2⟩
      exact fun a ha hid => absurd hid (hno a ha)
    · simp only [wp_bind]
      rw [wp_readSlot (h.live_inUse ha)]
      split
      · next hconsisted =>
        refine ⟨rfl, by simp, fun hf => ?_⟩
        have hloose := hf p List.mem_cons_self a ha hloco
        rw [not_consisted_iff.mpr hloose] at hconsisted
        cases hconsisted
      · next hnot =>
        have hloose : t.Loose a := not_consisted_iff.mp (Bool.not_eq_true _ ▸ hnot)
        refine wp_mono ih fun r t' hr => ⟨hr.1, hcons ?_ hr.2⟩
        intro b hb hbid
        rw [h.loco_inj hb ha (hbid.trans hloco.symm)]
        exact hloose

/-! ## Building a consist -/

section Build

/-- The state while the followers `ps` are still to be chained in: root `l` has the chain `zs`, which
ends with `prev`. -/
structure Building (t : LocoTable) (xs ys : List Addr) (busy : Option Addr) (l : Addr)
    (zs : List Addr) (prev : Addr) (ps : List Int16) : Prop where
  lists : Lists t xs ys
  consists : Consists t xs busy
  busy_eq : busy = none ∨ busy = some l
  chain : Forest.Chain xs t.leadOf t.consistNextOf l zs
  tail : ∃ ws, l :: zs = ws ++ [prev]
  lead_id : (t.mem l).loco ≤ highestLocoId
  ids : ValidIds ps
  free : Free t xs ps
  not_lead : ∀ p ∈ ps, (t.mem l).loco ≠ locoIdOf p

variable {prev : Addr} {p : Int16} {ps : List Int16}

/-- Slot `a` of loco `p` is chained in. -/
theorem Building.chained (h : Building t xs ys busy l zs prev (p :: ps)) (ha : a ∈ xs)
    (hid : (t.mem a).loco = locoIdOf p) (reversed : Bool) :
    a ≠ prev ∧ Building (t.chained l prev a reversed) xs ys none l (zs ++ [a]) a ps := by
  obtain ⟨hlists, hconsists, hbusy, hchain, ⟨ws, htail⟩, hlead, hids, hfree, hnot⟩ := h
  have hloose := hfree p List.mem_cons_self a ha hid
  have hal : a ≠ l := fun heq => hnot p List.mem_cons_self (heq ▸ hid)
  have hida : (t.mem a).loco ≤ highestLocoId := hid ▸ hids.high p List.mem_cons_self
  obtain ⟨hne, hconsists', hchain'⟩ :=
    hconsists.chained reversed hbusy hchain htail ha hloose hal hida hlead
  have hprev : prev ∈ l :: zs := by rw [htail]; simp
  refine ⟨hne, hlists.chained hne, hconsists', .inl rfl, hchain', ⟨l :: zs, by simp⟩, ?_, hids.tail,
    ?_, ?_⟩
  · rw [loco_chained hne]; exact hlead
  · intro q hq b hb hbid
    rw [loco_chained hne] at hbid
    have hbloose := hfree q (List.mem_cons_of_mem p hq) b hb hbid
    have hba : b ≠ a := fun heq => hids.head_ne hq (hid.symm.trans (heq ▸ hbid))
    have hbp : b ≠ prev := by
      rintro rfl
      rcases List.mem_cons.mp hprev with hbl | hbz
      · exact hnot q (List.mem_cons_of_mem p hq) (hbl ▸ hbid)
      · rw [Loose, ((hchain.visits b).mp hbz).2] at hbloose
        cases hbloose.1
    rw [Loose, leadOf, consistNextOf, mem_chained_of_ne hba hbp]
    exact hbloose
  · intro q hq
    rw [loco_chained hne]
    exact hnot q (List.mem_cons_of_mem p hq)

/-- A chain does not notice that a slot is created. -/
theorem chain_created (hzs : Forest.Chain xs t.leadOf t.consistNextOf l zs) {id : UInt16}
    {t' : LocoTable} (ht' : Created t xs id a t') (hloose : t'.Loose a) :
    Forest.Chain (a :: xs) t'.leadOf t'.consistNextOf l zs := by
  have hmem := ht'.mem_inUse
  refine ⟨List.mem_cons_of_mem a hzs.mem, ?_, ?_, hzs.nodup, ?_⟩
  · rw [leadOf, hmem l hzs.mem]; exact hzs.root
  · rw [consistNextOf, hmem l hzs.mem]
    exact hzs.links.congr fun b hb =>
      congrArg LocoSlot.consistNext (hmem b (hzs.subset b (List.mem_cons_of_mem l hb)))
  · intro b
    rw [hzs.visits b, List.mem_cons]
    by_cases hb : b = a
    · subst hb
      simp [ht'.not_mem, hloose.1]
    · simp only [hb, false_or]
      refine and_congr_right fun hbx => ?_
      rw [leadOf, leadOf, hmem b hbx]

/-- The slot of the next follower had to be created. -/
theorem Building.created (h : Building t xs ys busy l zs prev (p :: ps)) {t' : LocoTable}
    (ht' : Created t xs (locoIdOf p) a t') :
    ∃ ys', Building t' (a :: xs) ys' busy l zs prev (p :: ps) := by
  obtain ⟨hlists, hconsists, hbusy, hchain, htail, hlead, hids, hfree, hnot⟩ := h
  obtain ⟨hconsists', hloose⟩ := hconsists.created ht'
  have hmem := ht'.mem_inUse
  obtain ⟨ys', hlists'⟩ := ht'.lists
  have hloco : (t'.mem l).loco = (t.mem l).loco := by rw [hmem l hchain.mem]
  refine ⟨ys', hlists', hconsists', hbusy, chain_created hchain ht' hloose, htail, hloco ▸ hlead,
    hids, ?_, hloco ▸ hnot⟩
  intro q hq b hb hbid
  rcases List.mem_cons.mp hb with rfl | hb
  · exact hloose
  · rw [hmem b hb] at hbid
    rw [Loose, leadOf, consistNextOf, hmem b hb]
    exact hfree q hq b hb hbid

/-- The three writes that chain a slot in. -/
theorem wp_chain_writes (hlists : Lists t xs ys) (ha : a ∈ xs) (hprev : prev ∈ xs)
    (hne : a ≠ prev) {reversed : Bool} {Q : Unit → LocoTable → Prop}
    (hQ : Q () (t.chained l prev a reversed)) :
    wp F (do
      setConsistLead a (some l)
      setConsistReverse a reversed
      setConsistNext prev (some a) : Slots Unit) Q t := by
  have hla := hlists.live_inUse ha
  have hlp := hlists.live_inUse hprev
  simp only [setConsistLead, setConsistReverse, setConsistNext, wp_bind, wp_writeSlot hla]
  rw [wp_writeSlot (by exact hla), wp_writeSlot (by exact hlp)]
  simp only [mem_write_self, write_write, mem_write_of_ne hne.symm]
  exact hQ

/-- One turn of the loop that chains the followers in. -/
theorem wp_chainFollowers_cons (h : Building t xs ys busy l zs prev (p :: ps))
    (hF : ¬ Room t xs ((p :: ps).map locoIdOf) → F .nullPointer) {Q : Unit → LocoTable → Prop}
    (hQ : ∀ t' xs' ys' a, Building t' xs' ys' none l (zs ++ [a]) a ps →
      (Room t' xs' (ps.map locoIdOf) ↔ Room t xs ((p :: ps).map locoIdOf)) → t'.maxLocos = t.maxLocos →
      wp F (chainFollowers l a ps) Q t') :
    wp F (chainFollowers l prev (p :: ps)) Q t := by
  -- the slot is there: it is chained in and the loop goes on
  have hgo : ∀ {t' : LocoTable} {xs' ys' : List Addr} {a : Addr},
      Building t' xs' ys' busy l zs prev (p :: ps) → a ∈ xs' →
      (t'.mem a).loco = locoIdOf p → (Room t' xs' (ps.map locoIdOf) ↔ Room t xs ((p :: ps).map locoIdOf)) →
      t'.maxLocos = t.maxLocos →
      wp F (do
        setConsistLead a (some l)
        setConsistReverse a (p < 0)
        setConsistNext prev (some a)
        chainFollowers l a ps : Slots Unit) Q t' := by
    intro t' xs' ys' a hb ha hid hroom hmax
    obtain ⟨hne, hb'⟩ := hb.chained ha hid (decide (p < 0))
    have hprev : prev ∈ xs' := by
      obtain ⟨ws, htail⟩ := hb.tail
      exact hb.chain.subset prev (by rw [htail]; simp)
    have hassoc : (do
        setConsistLead a (some l)
        setConsistReverse a (p < 0)
        setConsistNext prev (some a)
        chainFollowers l a ps : Slots Unit) = (do
        (do
          setConsistLead a (some l)
          setConsistReverse a (p < 0)
          setConsistNext prev (some a) : Slots Unit)
        chainFollowers l a ps : Slots Unit) := by simp
    rw [hassoc, wp_bind]
    refine wp_chain_writes hb.lists ha hprev hne (hQ _ xs' ys' a hb' ?_ hmax)
    rw [← hroom]
    exact room_congr _ (fun b _ => loco_chained hne b) rfl
  simp only [chainFollowers]
  rw [wp_bind]
  refine wp_mono (getSlot_spec h.lists (locoIdOf p) true) ?_
  intro r t' hr
  cases hr with
  | zero h0 => exact absurd h0 (h.ids.low p List.mem_cons_self)
  | unknown _ _ hc => cases hc
  | @found a _ ha hid => exact hgo h ha hid (room_cons_of_found ha hid) rfl
  | full _ hno _ hfull => exact hF (not_room_of_full hno hfull)
  | @created a _ _ hno _ _ ht' =>
    obtain ⟨ys', hb⟩ := h.created ht'
    exact hgo hb List.mem_cons_self ht'.loco
      (room_cons_of_created hno ht' h.ids.head_not_mem) ht'.maxLocos

/-- What is left when the consist is built. -/
structure Built (t : LocoTable) (t' : LocoTable) : Prop where
  ok : ∃ xs ys, Lists t' xs ys ∧ Consists t' xs none
  maxLocos : t'.maxLocos = t.maxLocos

/-- The loop chains all followers in, or stops with a null pointer when the table is full. -/
theorem chainFollowers_spec {t₀ : LocoTable} (h : Building t xs ys none l zs prev ps)
    (hmax : t.maxLocos = t₀.maxLocos) (hF : ¬ Room t xs (ps.map locoIdOf) → F .nullPointer) :
    wp F (chainFollowers l prev ps) (fun _ t' => Room t xs (ps.map locoIdOf) ∧ Built t₀ t') t := by
  induction ps generalizing t xs ys zs prev with
  | nil =>
    exact ⟨room_nil h.lists, ⟨xs, ys, h.lists, h.consists⟩, hmax⟩
  | cons p ps ih =>
    refine wp_chainFollowers_cons h hF ?_
    intro t' xs' ys' a hb hroom hmax'
    refine wp_mono (ih hb (hmax'.trans hmax) fun hno => hF fun hr => hno (hroom.mpr hr)) ?_
    rintro _ t'' ⟨hr, hbuilt⟩
    exact ⟨hroom.mp hr, hbuilt⟩

/-- The lead is marked, and has no follower yet. -/
theorem building_lead (h : Lists t xs ys) (hc : Consists t xs none) (ha : a ∈ xs)
    (hid : (t.mem a).loco = locoIdOf p) (hids : ValidIds (p :: ps)) (hfree : Free t xs (p :: ps))
    (reversed : Bool) :
    Building (t.write a { t.mem a with consistReverse := reversed }) xs ys (some a) a [] a ps := by
  have hloose := hfree p List.mem_cons_self a ha hid
  have hloco : ∀ b, ((t.write a { t.mem a with consistReverse := reversed }).mem b).loco =
      (t.mem b).loco := by
    intro b
    by_cases hb : b = a
    · rw [hb, mem_write_self]
    · rw [mem_write_of_ne hb]
  have hlead : (t.write a { t.mem a with consistReverse := reversed }).leadOf = t.leadOf := by
    funext b
    by_cases hb : b = a
    · rw [hb, leadOf, mem_write_self]; rfl
    · rw [leadOf, mem_write_of_ne hb]; rfl
  have hnext : (t.write a { t.mem a with consistReverse := reversed }).consistNextOf =
      t.consistNextOf := by
    funext b
    by_cases hb : b = a
    · rw [hb, consistNextOf, mem_write_self]; rfl
    · rw [consistNextOf, mem_write_of_ne hb]; rfl
  -- the lead has been in no consist, so nobody follows it
  have hno := hc.forest.no_follower ha hloose.1 hloose.2
  refine ⟨h.write rfl rfl, ⟨hlead ▸ hnext ▸ hc.forest, ?_, ?_⟩, .inr rfl, ?_, ⟨[], rfl⟩, ?_,
    hids.tail, ?_, ?_⟩
  · intro b hb hbusy hbl
    rw [Loose, hlead, hnext] at hbl
    rw [mem_write_of_ne fun heq => hbusy (congrArg some heq)]
    exact hc.reverse b hb (fun hn => by cases hn) hbl
  · intro b hb hbl
    rw [Loose, hlead, hnext] at hbl
    rw [hloco]
    exact hc.ids b hb hbl
  · rw [hlead, hnext]
    refine ⟨ha, hloose.1, hloose.2, List.nodup_nil, fun b => ?_⟩
    simp only [List.not_mem_nil, false_iff]
    exact fun hb => hno b hb.1 hb.2
  · rw [hloco, hid]; exact hids.high p List.mem_cons_self
  · intro q hq b hb hbid
    rw [hloco] at hbid
    rw [Loose, hlead, hnext]
    exact hfree q (List.mem_cons_of_mem p hq) b hb hbid
  · intro q hq
    rw [hloco, hid]
    exact hids.head_ne hq

/-- **A consist is built if there is room for it**, and otherwise `build` runs into a null
pointer. -/
theorem build_spec (h : Lists t xs ys) (hc : Consists t xs none) (hps : ps ≠ [])
    (hids : ValidIds (p :: ps)) (hfree : Free t xs (p :: ps))
    (hF : ¬ Room t xs ((p :: ps).map locoIdOf) → F .nullPointer) :
    wp F (build p ps) (fun _ t' => Room t xs ((p :: ps).map locoIdOf) ∧ Built t t') t := by
  -- the slot of the lead is there
  have hgo : ∀ {t' : LocoTable} {xs' ys' : List Addr} {a : Addr}, Lists t' xs' ys' →
      Consists t' xs' none → a ∈ xs' → (t'.mem a).loco = locoIdOf p → Free t' xs' (p :: ps) →
      (Room t' xs' (ps.map locoIdOf) ↔ Room t xs ((p :: ps).map locoIdOf)) → t'.maxLocos = t.maxLocos →
      wp F (do
        setConsistReverse a (p < 0)
        chainFollowers a a ps : Slots Unit)
        (fun _ t' => Room t xs ((p :: ps).map locoIdOf) ∧ Built t t') t' := by
    intro t' xs' ys' a h' hc' ha hid hfree' hroom hmax
    rw [wp_bind, setConsistReverse, wp_writeSlot (h'.live_inUse ha)]
    have hb := building_lead h' hc' ha hid hids hfree' (decide (p < 0))
    have hroom' : Room (t'.write a { t'.mem a with consistReverse := decide (p < 0) }) xs'
        (ps.map locoIdOf) ↔
        Room t xs ((p :: ps).map locoIdOf) := by
      rw [← hroom]
      refine room_congr _ (fun b _ => ?_) rfl
      by_cases hba : b = a
      · rw [hba, mem_write_self]
      · rw [mem_write_of_ne hba]
    obtain ⟨q, qs, rfl⟩ := List.exists_cons_of_ne_nil hps
    refine wp_chainFollowers_cons hb (fun hno => hF fun hr => hno (hroom'.mpr hr)) ?_
    intro t'' xs'' ys'' c hb'' hr'' hmax''
    refine wp_mono (chainFollowers_spec hb'' (hmax''.trans hmax)
      fun hno => hF fun hr => hno (hr''.mpr (hroom'.mpr hr))) ?_
    rintro _ u ⟨hr, hbuilt⟩
    exact ⟨hroom'.mp (hr''.mp hr), hbuilt⟩
  simp only [build]
  rw [wp_bind]
  refine wp_mono (getSlot_spec h (locoIdOf p) true) ?_
  intro r t' hr
  cases hr with
  | zero h0 => exact absurd h0 (hids.low p List.mem_cons_self)
  | unknown _ _ hcreate => cases hcreate
  | @found a _ ha hid => exact hgo h hc ha hid hfree (room_cons_of_found ha hid) rfl
  | full _ hno _ hfull => exact hF (not_room_of_full hno hfull)
  | @created a _ _ hno _ _ ht' =>
    obtain ⟨hc', hloose⟩ := hc.created ht'
    obtain ⟨ys', hlists'⟩ := ht'.lists
    refine hgo hlists' hc' List.mem_cons_self ht'.loco ?_
      (room_cons_of_created hno ht' hids.head_not_mem) ht'.maxLocos
    intro q hq b hb hbid
    rcases List.mem_cons.mp hb with rfl | hb
    · exact hloose
    · rw [ht'.mem_inUse b hb] at hbid
      rw [Loose, leadOf, consistNextOf, ht'.mem_inUse b hb]
      exact hfree q hq b hb hbid

end Build

/-! ## Loops that only look -/

/-- A loop that follows a pointer field and gathers something from each slot. -/
theorem wp_follow_reads {β : Type} {field : LocoSlot → Option Addr}
    {gather : Addr → LocoSlot → β → β} {p : Option Addr} {cs : List Addr} {b : β}
    (h : Links (fun a => field (t.mem a)) p cs) (hlive : ∀ a ∈ cs, t.live a = true)
    (hlen : cs.length ≤ t.fresh) {Q : β → LocoTable → Prop}
    (hQ : Q (cs.foldl (fun b a => gather a (t.mem a) b) b) t) :
    wp F (follow (fun a b => do
      let slot ← readSlot a
      pure (field slot, gather a slot b)) p b) Q t := by
  simp only [follow, wp_bind, wp_get]
  refine wp_loop (fun rest p b' s => s = t ∧ Links (fun a => field (t.mem a)) p rest ∧
      (∀ a ∈ rest, a ∈ cs) ∧ rest.foldl (fun b a => gather a (t.mem a) b) b' =
        cs.foldl (fun b a => gather a (t.mem a) b) b) ?_ ?_ hlen ⟨rfl, h, fun a ha => ha, rfl⟩
  · rintro rest a b' s ⟨rfl, hlinks, hsub, hfold⟩
    cases rest with
    | nil => cases hlinks
    | cons c rest =>
      obtain ⟨hp, hlinks⟩ := hlinks
      cases hp
      refine ⟨rest, rfl, ?_⟩
      rw [wp_bind, wp_readSlot (hlive a (hsub a List.mem_cons_self))]
      exact ⟨rfl, hlinks, fun d hd => hsub d (List.mem_cons_of_mem a hd), hfold⟩
  · rintro rest b' s ⟨rfl, hlinks, -, hfold⟩
    cases rest with
    | nil => rw [← hfold] at hQ; exact hQ
    | cons c rest => cases hlinks.1

theorem wp_listChain (h : Lists t xs ys)
    (hzs : Forest.Chain xs t.leadOf t.consistNextOf l zs) {Q : String → LocoTable → Prop}
    (hQ : ∀ out, Q out t) : wp F (listChain (some l)) Q t :=
  wp_follow_reads hzs.links_cons (fun b hb => h.live_inUse (hzs.subset b hb))
    (chain_length h hzs) (hQ _)

/-- Listing the consists changes nothing. -/
theorem listConsists_spec (h : Lists t xs ys) (hc : Consists t xs busy) :
    wp F listConsists (fun _ t' => t' = t) t := by
  simp only [listConsists, follow, wp_bind, wp_get]
  refine wp_loop (fun rest p _ s => s = t ∧ Links t.nextOf p rest ∧ ∀ a ∈ rest, a ∈ xs) ?_ ?_
    h.length_inUse ⟨rfl, h.inUse, fun a ha => ha⟩
  · rintro rest a out s ⟨rfl, hlinks, hsub⟩
    cases rest with
    | nil => cases hlinks
    | cons c rest =>
      obtain ⟨hp, hlinks⟩ := hlinks
      cases hp
      have ha := hsub a List.mem_cons_self
      have hnext : ∀ out : String, s = s ∧ Links s.nextOf (s.mem a).next rest ∧
          ∀ b ∈ rest, b ∈ xs :=
        fun _ => ⟨rfl, hlinks, fun b hb => hsub b (List.mem_cons_of_mem a hb)⟩
      refine ⟨rest, rfl, ?_⟩
      rw [wp_bind, wp_readSlot (h.live_inUse ha)]
      split
      · next hlead =>
        simp only [LocoSlot.isConsistLead, Bool.and_eq_true, Option.isNone_iff_eq_none] at hlead
        obtain ⟨zs, hzs⟩ := hc.forest.exists_chain ha hlead.2
        rw [wp_bind]
        exact wp_listChain h hzs hnext
      · exact hnext out
  · rintro rest out s ⟨rfl, -, -⟩
    rfl

/-! ## `parse` -/

/-- The slot is in the consist that loco `p` leads. -/
def OwnConsist (t : LocoTable) (xs : List Addr) (p : Int16) (b : Addr) : Prop :=
  ∃ a ∈ xs, (t.mem a).loco = locoIdOf p ∧ t.leadOf a = none ∧ t.rootOf b = a

/-- What is left when the consist that loco `p` leads, if it leads one, is killed. -/
structure Killed (t : LocoTable) (xs ys : List Addr) (p : Int16) (t' : LocoTable) : Prop where
  lists : Lists t' xs ys
  consists : Consists t' xs none
  loose : ∀ b ∈ xs, t'.Loose b ↔ t.Loose b ∨ OwnConsist t xs p b
  members : ∀ b, (t'.mem b).unchained = (t.mem b).unchained
  statics : t' = { t with mem := t'.mem }

theorem killed_refl (h : Lists t xs ys) (hc : Consists t xs none) {p : Int16}
    (hloose : ∀ b ∈ xs, OwnConsist t xs p b → t.Loose b) : Killed t xs ys p t :=
  ⟨h, hc, fun b hb => ⟨.inl, fun hown => hown.elim id (hloose b hb)⟩, fun _ => rfl, rfl⟩

/-- The slots of the consist that a loco leads; none if it leads none. -/
def ConsistLed (t : LocoTable) (xs : List Addr) (locoId : UInt16) (cs : List Addr) : Prop :=
  (cs = [] ∧ ∀ a ∈ xs, (t.mem a).loco = locoId → (t.mem a).isConsistLead = false) ∨
  ∃ l zs, Forest.Chain xs t.leadOf t.consistNextOf l zs ∧ cs = l :: zs ∧
    (t.mem l).loco = locoId ∧ (t.mem l).isConsistLead = true

/-- `killConsistOf` takes the links of the slots in the consist that the loco leads. -/
theorem killConsistOf_led (h : Lists t xs ys) (hc : Consists t xs none) (p : Int16) :
    wp F (killConsistOf p)
      (fun _ t' => ∃ cs, ConsistLed t xs (locoIdOf p) cs ∧ Unchained t cs t') t := by
  have hnone : (∀ a ∈ xs, (t.mem a).loco = locoIdOf p → (t.mem a).isConsistLead = false) →
      ∃ cs, ConsistLed t xs (locoIdOf p) cs ∧ Unchained t cs t :=
    fun hno => ⟨[], .inl ⟨rfl, hno⟩, unchained_nil.mpr rfl⟩
  simp only [killConsistOf, wp_bind]
  refine wp_findSlot h (fun hno => hnone fun a ha hid => absurd hid (hno a ha)) fun a ha hid => ?_
  simp only [wp_bind]
  rw [wp_readSlot (h.live_inUse ha)]
  apply wp_when
  · intro hlead
    refine wp_mono (deleteAnyConsist_unchained h hc p) ?_
    rintro _ t' ⟨cs, ⟨rfl, hloose⟩ | ⟨l, zs, hzs, rfl, c, hcz, hcid⟩, ht'⟩
    · exfalso
      have hnext := (hloose a ha hid).2
      rw [consistNextOf] at hnext
      simp [LocoSlot.isConsistLead, hnext] at hlead
    · have hroot : t.leadOf a = none := by
        simp only [LocoSlot.isConsistLead, Bool.and_eq_true, Option.isNone_iff_eq_none] at hlead
        exact hlead.2
      have hca : c = a := h.loco_inj (hzs.subset c hcz) ha (hcid.trans hid.symm)
      have hal : a = l := hzs.eq_root (hca ▸ hcz) hroot
      subst hal
      exact ⟨a :: zs, .inr ⟨a, zs, hzs, rfl, hid, hlead⟩, ht'⟩
  · intro hnot
    apply hnone
    intro b hb hbid
    rw [h.loco_inj hb ha (hbid.trans hid.symm)]
    exact eq_false_of_ne_true hnot

/-- The consist of a loco is taken apart, if the loco is in one. -/
theorem killConsistOf_spec (h : Lists t xs ys) (hc : Consists t xs none) (p : Int16) :
    wp F (killConsistOf p) (fun _ t' => Killed t xs ys p t') t := by
  refine wp_mono (killConsistOf_led h hc p) ?_
  rintro _ t' ⟨cs, ⟨rfl, hno⟩ | ⟨l, zs, hzs, rfl, hid, -⟩, ht'⟩
  · rw [unchained_nil.mp ht']
    refine killed_refl h hc ?_
    rintro b hb ⟨a, ha, haid, halead, hab⟩
    -- slot `a` leads nobody
    have hnext : (t.mem a).consistNext = none := by
      have hal : (t.mem a).consistLead = none := halead
      simpa [LocoSlot.isConsistLead, hal] using hno a ha haid
    have hdel : ConsistDeleted t xs ys (t.mem a).loco t := by
      refine consistDeleted_refl h hc fun d hd hdid => ?_
      rw [h.loco_inj hd ha hdid]
      exact ⟨halead, hnext⟩
    refine (hdel.loose b hb).mpr (.inr ⟨a, ha, rfl, ?_⟩)
    rw [hab, rootOf, halead, Option.getD_none]
  · have hl : l ∈ xs := hzs.subset l List.mem_cons_self
    have hroot : t.rootOf l = l := (rootOf_eq_iff hzs hl).mpr List.mem_cons_self
    have hdel := consistDeleted_of_unchained h hc hzs List.mem_cons_self ht'
    refine ⟨hdel.lists, hdel.consists, fun b hb => (hdel.loose b hb).trans (or_congr_right ?_),
      hdel.members, hdel.statics⟩
    constructor
    · rintro ⟨c, hcx, hcid, hcb⟩
      have hcl : c = l := h.loco_inj hcx hl hcid
      subst hcl
      exact ⟨c, hcx, hid, hzs.root, hcb.symm.trans hroot⟩
    · rintro ⟨c, hcx, hcid, -, hcb⟩
      have hcl : c = l := h.loco_inj hcx hl (hcid.trans hid.symm)
      subst hcl
      exact ⟨c, hcx, rfl, hroot.trans hcb.symm⟩

/-- `parse` gets as far as building a consist: the ids are in order, there are at least two, and
none of the locos is in another consist. -/
def Builds (t : LocoTable) (xs : List Addr) (p : Int16) (rest : List Int16) : Prop :=
  checkLocoIds (p :: rest) = none ∧ rest ≠ [] ∧
  ∀ q ∈ p :: rest, ∀ b ∈ xs, (t.mem b).loco = locoIdOf q → t.Loose b ∨ OwnConsist t xs p b

instance (t : LocoTable) (xs : List Addr) (p : Int16) (b : Addr) :
    Decidable (OwnConsist t xs p b) :=
  inferInstanceAs (Decidable (∃ a ∈ xs, _ ∧ _ ∧ _))

instance (t : LocoTable) (xs : List Addr) (p : Int16) (rest : List Int16) :
    Decidable (Builds t xs p rest) :=
  have (a : Addr) : Decidable (t.Loose a) := inferInstanceAs (Decidable (_ ∧ _))
  inferInstanceAs (Decidable (_ ∧ _ ∧ _))

/-- There is room for the consist that `parse` is asked to build. -/
def ParseRoom (t : LocoTable) (xs : List Addr) : List Int16 → Prop
  | [] => True
  | p :: rest => Builds t xs p rest → Room t xs ((p :: rest).map locoIdOf)

instance (t : LocoTable) (xs : List Addr) : DecidablePred (ParseRoom t xs)
  | [] => isTrue trivial
  | p :: rest => inferInstanceAs (Decidable (Builds t xs p rest → _))

theorem built_refl (h : Lists t xs ys) (hc : Consists t xs none) : Built t t :=
  ⟨⟨xs, ys, h, hc⟩, rfl⟩

/-- **`parse` keeps the consists in order**, whatever it is given, if there is room for what it
builds; without room it runs into a null pointer. -/
theorem parse_spec (h : Lists t xs ys) (hc : Consists t xs none) (ps : List Int16)
    (hF : ¬ ParseRoom t xs ps → F .nullPointer) :
    wp F (parse ps) (fun _ t' => ParseRoom t xs ps ∧ Built t t') t := by
  cases ps with
  | nil =>
    simp only [parse, wp_bind]
    refine wp_mono (listConsists_spec h hc) ?_
    rintro _ t' rfl
    exact ⟨trivial, built_refl h hc⟩
  | cons p rest =>
    rw [parse]
    -- the ids are checked before anything is changed
    cases hcheck : checkLocoIds (p :: rest) with
    | some complaint =>
      refine ⟨fun hb => ?_, built_refl h hc⟩
      rw [hb.1] at hcheck
      cases hcheck
    | none =>
      simp only
      rw [wp_bind]
      refine wp_mono (killConsistOf_spec h hc p) ?_
      rintro _ t₁ ⟨hlists, hconsists, hloose, hmembers, hstatics⟩
      have hmax : t₁.maxLocos = t.maxLocos := by rw [hstatics]
      have hloco : ∀ b, (t₁.mem b).loco = (t.mem b).loco := by
        intro b
        have hb := congrArg LocoSlot.loco (hmembers b)
        exact hb
      -- without the consist of the first loco, its members are free to be taken
      have hfree : Free t₁ xs (p :: rest) ↔ ∀ q ∈ p :: rest, ∀ b ∈ xs,
          (t.mem b).loco = locoIdOf q → t.Loose b ∨ OwnConsist t xs p b := by
        refine forall₂_congr fun q _ => forall₂_congr fun b hb => ?_
        rw [hloco, hloose b hb]
      have hroom : Room t₁ xs ((p :: rest).map locoIdOf) ↔ Room t xs ((p :: rest).map locoIdOf) :=
        room_congr _ (fun b _ => hloco b) hmax
      split
      · next hrest => exact ⟨fun hb => absurd hrest hb.2.1, ⟨xs, ys, hlists, hconsists⟩, hmax⟩
      · next hrest =>
        rw [wp_bind]
        refine wp_mono (findConsisted_spec hlists (p :: rest)) ?_
        rintro r _ ⟨rfl, hr⟩
        cases r with
        | some q =>
          refine ⟨fun hb => ?_, ⟨xs, ys, hlists, hconsists⟩, hmax⟩
          exact absurd (hr.mpr (hfree.mpr hb.2.2)) (by simp)
        | none =>
          have hfree' := hr.mp rfl
          have hbuilds : Builds t xs p rest := ⟨hcheck, hrest, hfree.mp hfree'⟩
          simp only
          rw [wp_bind]
          refine wp_mono (build_spec hlists hconsists hrest (checkLocoIds_eq_none hcheck) hfree'
            fun hno => hF fun hp => hno (hroom.mpr (hp hbuilds))) ?_
          rintro _ t₂ ⟨hr', hbuilt⟩
          exact ⟨fun _ => hroom.mp hr', hbuilt.ok, hbuilt.maxLocos.trans hmax⟩

/-! ## `addLocoToConsist` -/

/-- Following `consistLead` from a slot ends at its root. -/
theorem wp_backUpToLead (h : Lists t xs ys) (hc : Consists t xs busy) (ha : a ∈ xs)
    {Q : Addr → LocoTable → Prop} (hQ : Q (t.rootOf a) t) : wp F (backUpToLead a) Q t := by
  have hlive : ∀ b ∈ xs, t.live b = true := fun b hb => h.live_inUse hb
  cases hlead : t.leadOf a with
  | none =>
    have hlinks : Links t.leadOf (some a) [a] := ⟨rfl, hlead⟩
    have hlen : [a].length ≤ t.fresh :=
      Nat.zero_lt_of_lt (h.fresh a (List.mem_append_left _ ha))
    rw [rootOf, hlead, Option.getD_none] at hQ
    exact wp_follow_reads hlinks (fun b hb => hlive b (by simpa using List.mem_singleton.mp hb ▸ ha))
      hlen hQ
  | some l =>
    obtain ⟨hl, hroot⟩ := hc.forest.root a ha l hlead
    have hal : a ≠ l := by
      rintro rfl
      rw [hroot] at hlead
      cases hlead
    have hlinks : Links t.leadOf (some a) [a, l] := ⟨rfl, hlead, hroot⟩
    have hsub : ∀ b ∈ [a, l], b ∈ xs := by
      intro b hb
      simp only [List.mem_cons, List.not_mem_nil, or_false] at hb
      rcases hb with rfl | rfl
      · exact ha
      · exact hl
    have hlen : [a, l].length ≤ t.fresh :=
      length_le_of_nodup_of_lt (by simpa using hal) fun b hb =>
        h.fresh b (List.mem_append_left _ (hsub b hb))
    rw [rootOf, hlead, Option.getD_some] at hQ
    exact wp_follow_reads hlinks (fun b hb => hlive b (hsub b hb)) hlen hQ

/-- Following `consistNext` from a root ends at the last slot of its chain. -/
theorem wp_findTail (h : Lists t xs ys) (hzs : Forest.Chain xs t.leadOf t.consistNextOf l zs)
    {Q : Addr → LocoTable → Prop} (hQ : ∀ ws tail, l :: zs = ws ++ [tail] → Q tail t) :
    wp F (findTail l) Q t := by
  obtain ⟨ws, tail, hsplit⟩ := List.eq_nil_or_concat (l :: zs) |>.resolve_left (by simp)
  rw [List.concat_eq_append] at hsplit
  have hfold : (l :: zs).foldl (fun _ a => a) l = tail := by
    rw [hsplit, List.foldl_append]
    rfl
  refine wp_follow_reads hzs.links_cons (fun b hb => h.live_inUse (hzs.subset b hb))
    (chain_length h hzs) ?_
  rw [hfold]
  exact hQ ws tail hsplit

/-- The root of a slot, with its chain. -/
theorem exists_root (hc : Consists t xs busy) (ha : a ∈ xs) :
    ∃ zs, Forest.Chain xs t.leadOf t.consistNextOf (t.rootOf a) zs ∧ a ∈ t.rootOf a :: zs := by
  cases hlead : t.leadOf a with
  | none =>
    have hroot : t.rootOf a = a := by rw [rootOf, hlead, Option.getD_none]
    obtain ⟨zs, hzs⟩ := hc.forest.exists_chain ha hlead
    rw [hroot]
    exact ⟨zs, hzs, List.mem_cons_self⟩
  | some l =>
    have hroot : t.rootOf a = l := by rw [rootOf, hlead, Option.getD_some]
    obtain ⟨hl, hlroot⟩ := hc.forest.root a ha l hlead
    obtain ⟨zs, hzs⟩ := hc.forest.exists_chain hl hlroot
    rw [hroot]
    exact ⟨zs, hzs, List.mem_cons_of_mem l ((hzs.visits a).mpr ⟨ha, hlead⟩)⟩

/-- The end of `addLocoToConsist`, on slots of two different locos. -/
theorem chainIn_spec (h : Lists t xs ys) (hc : Consists t xs none)
    (hzs : Forest.Chain xs t.leadOf t.consistNextOf l zs) {ws : List Addr} {tail : Addr}
    (htail : l :: zs = ws ++ [tail]) (hb : b ∈ xs) (hidb : (t.mem b).loco ≤ highestLocoId)
    (ha : a ∈ l :: zs) (hab : a ≠ b) (hida : (t.mem a).loco ≤ highestLocoId) (reversed : Bool) :
    wp F (chainIn l tail b reversed) (fun _ t' => Built t t') t := by
  simp only [chainIn]
  rw [wp_bind, wp_readSlot (h.live_inUse hb)]
  split
  · exact built_refl h hc
  · next hnot =>
    have hloose : t.Loose b := not_consisted_iff.mp (Bool.not_eq_true _ ▸ hnot)
    -- the lead of another loco has a chain, so it is not loose
    have hbl : b ≠ l := by
      rintro rfl
      have hnil : zs = [] := hzs.nil_iff.mpr hloose.2
      rw [hnil, List.mem_singleton] at ha
      exact hab ha
    have hidl : (t.mem l).loco ≤ highestLocoId := by
      rcases List.mem_cons.mp ha with rfl | hin
      · exact hida
      · refine hc.ids l hzs.mem fun hl => ?_
        rw [hzs.nil_iff.mpr hl.2] at hin
        cases hin
    obtain ⟨hne, hconsists, -⟩ :=
      hc.chained reversed (.inl rfl) hzs htail hb hloose hbl hidb hidl
    have htailMem : tail ∈ xs := hzs.subset tail (by rw [htail]; simp)
    have hlb := h.live_inUse hb
    have hlt := h.live_inUse htailMem
    simp only [when, if_pos hbl, if_pos hne.symm]
    simp only [setConsistReverse, setConsistLead, setConsistNext, wp_bind, wp_pure]
    rw [wp_writeSlot hlb, wp_writeSlot (by exact hlb), wp_writeSlot (by exact hlt)]
    simp only [mem_write_self, write_write, mem_write_of_ne hne.symm]
    exact ⟨⟨xs, ys, h.chained hne, hconsists⟩, rfl⟩

/-- What `addLocoToConsist` leaves: consists in order, and nothing but a failure to report when a
slot was missing. -/
structure Added (t : LocoTable) (xs : List Addr) (ids : List UInt16) (r : Bool) (t' : LocoTable) :
    Prop where
  built : Built t t'
  refused : ¬ Room t xs ids → r = false ∧ ∀ b ∈ xs, b ∈ t'.slots ∧ t'.mem b = t.mem b

/-- The second slot of `addLocoToConsist` is looked up when the first one is there. -/
theorem wp_add_second (h : Lists t xs ys) (hc : Consists t xs none) (ha : a ∈ xs)
    {consistId locoId : UInt16} (hid : (t.mem a).loco = consistId)
    (hconsistId : consistId ≤ highestLocoId) (hlocoId : locoId ≤ highestLocoId)
    (hlocoId0 : locoId ≠ 0) (hdiff : locoId ≠ consistId) (reversed : Bool) {t₀ : LocoTable}
    {xs₀ : List Addr} (hsame : ∀ b ∈ xs₀, b ∈ xs ∧ t.mem b = t₀.mem b)
    (hmax : t.maxLocos = t₀.maxLocos)
    (hroom : Room t xs [locoId] ↔ Room t₀ xs₀ [consistId, locoId]) :
    wp F (do
      let leadSlot ← backUpToLead a
      let tailSlot ← findTail leadSlot
      let addSlot ← LocoSlot.getSlot locoId true
      match addSlot with
      | none => pure false
      | some b => chainIn leadSlot tailSlot b reversed : Slots Bool)
      (fun r t' => Added t₀ xs₀ [consistId, locoId] r t') t := by
  obtain ⟨zs, hzs, haz⟩ := exists_root hc ha
  simp only [wp_bind]
  refine wp_backUpToLead h hc ha (wp_findTail h hzs ?_)
  intro ws tail htail
  refine wp_mono (getSlot_spec h locoId true) ?_
  intro r t' hr
  cases hr with
  | zero h0 => exact absurd h0 hlocoId0
  | unknown _ _ hcreate => cases hcreate
  | @found b _ hb hbid =>
    have hab : a ≠ b := fun heq => hdiff (hbid.symm.trans (heq ▸ hid))
    refine wp_mono (chainIn_spec h hc hzs htail hb (hbid ▸ hlocoId) haz hab (hid ▸ hconsistId)
      reversed) ?_
    intro r t' hbuilt
    refine ⟨⟨hbuilt.ok, hbuilt.maxLocos.trans hmax⟩, fun hno => absurd ?_ hno⟩
    exact hroom.mp ((room_cons_of_found hb hbid).mp (room_nil h))
  | full _ hno _ hfull =>
    refine ⟨⟨⟨xs, ys, h, hc⟩, hmax⟩, fun _ => ⟨rfl, ?_⟩⟩
    rw [h.slots_eq]
    exact hsame
  | @created b t₁ _ hno _ _ ht₁ =>
    obtain ⟨hc₁, hloose⟩ := hc.created ht₁
    obtain ⟨ys₁, h₁⟩ := ht₁.lists
    have hab : a ≠ b := fun heq => ht₁.not_mem (heq ▸ ha)
    refine wp_mono (chainIn_spec h₁ hc₁ (chain_created hzs ht₁ hloose) htail List.mem_cons_self
      (ht₁.loco ▸ hlocoId) haz hab ?_ reversed) ?_
    · rw [ht₁.mem_inUse a ha, hid]; exact hconsistId
    · intro r t' hbuilt
      refine ⟨⟨hbuilt.ok, hbuilt.maxLocos.trans (ht₁.maxLocos.trans hmax)⟩,
        fun hno' => absurd ?_ hno'⟩
      exact hroom.mp ((room_cons_of_created hno ht₁ (by simp)).mp (room_nil h₁))

/-- **`addLocoToConsist` chains a loco in, or reports that it did not.** -/
theorem addLocoToConsist_spec (h : Lists t xs ys) (hc : Consists t xs none)
    (consistId locoId : UInt16) (reversed : Bool) :
    wp F (addLocoToConsist consistId locoId reversed) (fun r t' => Built t t' ∧
      (consistId ≠ 0 ∧ consistId ≤ highestLocoId ∧ locoId ≠ 0 ∧ locoId ≤ highestLocoId ∧
        locoId ≠ consistId → Added t xs [consistId, locoId] r t')) t := by
  -- the two checks of the source are for ids out of range
  have range : ∀ id : UInt16, (id < 1 ∨ id > highestLocoId) ↔
      ¬ (id ≠ 0 ∧ id ≤ highestLocoId) := by
    intro id
    have hid : id < 1 ↔ id = 0 := by
      rw [UInt16.lt_iff_toNat_lt, ← UInt16.toNat_inj]
      exact Nat.lt_one_iff
    rw [hid, gt_iff_lt, ← UInt16.not_le]
    tauto
  simp only [addLocoToConsist, range]
  split
  · next hno => exact ⟨built_refl h hc, fun hv => absurd ⟨hv.1, hv.2.1⟩ hno⟩
  split
  · next hno => exact ⟨built_refl h hc, fun hv => absurd ⟨hv.2.2.1, hv.2.2.2.1⟩ hno⟩
  split
  · next heq => exact ⟨built_refl h hc, fun hv => absurd heq hv.2.2.2.2⟩
  next hcid hlid hdiff =>
  obtain ⟨hc0, hcmax⟩ := not_not.mp hcid
  obtain ⟨hl0, hlmax⟩ := not_not.mp hlid
  rw [wp_bind]
  refine wp_mono (getSlot_spec h consistId true) ?_
  intro r t' hr
  cases hr with
  | zero h0 => exact absurd h0 hc0
  | unknown _ _ hcreate => cases hcreate
  | full _ hno _ hfull =>
    refine ⟨built_refl h hc, fun _ => ⟨built_refl h hc, fun _ => ⟨rfl, ?_⟩⟩⟩
    rw [h.slots_eq]
    exact fun b hb => ⟨hb, rfl⟩
  | @found a _ ha hid =>
    refine wp_mono (wp_add_second h hc ha hid hcmax hlmax hl0 hdiff reversed
      (fun b hb => ⟨hb, rfl⟩) rfl (room_cons_of_found ha hid)) ?_
    exact fun r t' hadded => ⟨hadded.built, fun _ => hadded⟩
  | @created a t₁ _ hno _ _ ht₁ =>
    obtain ⟨hc₁, -⟩ := hc.created ht₁
    obtain ⟨ys₁, h₁⟩ := ht₁.lists
    refine wp_mono (wp_add_second h₁ hc₁ List.mem_cons_self ht₁.loco hcmax hlmax hl0 hdiff reversed
      (fun b hb => ⟨List.mem_cons_of_mem a hb, ht₁.mem_inUse b hb⟩) ht₁.maxLocos
      (room_cons_of_created hno ht₁ (by simpa using Ne.symm hdiff))) ?_
    exact fun r t' hadded => ⟨hadded.built, fun _ => hadded⟩

end CommandStation
