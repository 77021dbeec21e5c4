import Finiex.Signals
import Finiex.Lib.Selections
import Mathlib.Data.List.Chain
import Mathlib.Data.List.Dedup
import Mathlib.Order.WithBot

namespace Finiex.SignalRuns

open Finiex.Types
open Finiex.Lib
open Finiex.Signals

section Indexed

variable {provider : SignalDataProvider} {snapshot : SignalSnapshot} {t : Instant}

/-- A snapshot sorts at or before another in the stream. -/
abbrev sortsBefore (snapshot later : SignalSnapshot) : Prop :=
  snapshot.getOrderKey ≤ later.getOrderKey

theorem streamOrder_sorted (snapshots : List SignalSnapshot) :
    (streamOrder snapshots).Pairwise sortsBefore :=
  List.pairwise_insertionSort _ _

theorem streamOrder_of_sorted {snapshots : List SignalSnapshot}
    (h : snapshots.Pairwise sortsBefore) : streamOrder snapshots = snapshots :=
  h.insertionSort_eq

structure Indexed (provider : SignalDataProvider) : Prop where
  sorted : provider.snapshots.Pairwise sortsBefore
  gateKeys : provider.gateKeys = gateKeysOf provider.snapshots
  seen : provider.seen = provider.snapshots.map identity

theorem indexed_reindex (signalKind : String) (snapshots : List SignalSnapshot) :
    Indexed (reindex signalKind snapshots) :=
  ⟨streamOrder_sorted snapshots, rfl, rfl⟩

theorem Indexed.extend (h : Indexed provider) (snapshots : List SignalSnapshot) :
    Indexed (provider.extend snapshots).1 := by
  unfold SignalDataProvider.extend
  dsimp only
  split
  · exact h
  · exact indexed_reindex _ _

def freshOf (provider : SignalDataProvider) (snapshots : List SignalSnapshot) :
    List SignalSnapshot :=
  snapshots.filter fun snapshot => identity snapshot ∉ provider.seen

theorem Indexed.extend_snapshots (h : Indexed provider) (snapshots : List SignalSnapshot) :
    (provider.extend snapshots).1.snapshots =
        streamOrder (provider.snapshots ++ freshOf provider snapshots) ∧
      (provider.extend snapshots).2 = (freshOf provider snapshots).length := by
  unfold SignalDataProvider.extend
  dsimp only
  split
  · next hnone =>
      have hnone' : freshOf provider snapshots = [] := hnone
      rw [hnone', List.append_nil, streamOrder_of_sorted h.sorted]
      exact ⟨rfl, rfl⟩
  · exact ⟨rfl, rfl⟩

theorem Indexed.resolvedAt (h : Indexed provider) (t : Instant) :
    provider.resolvedAt t = Timeline.current (entries provider.snapshots) t := by
  have hsnapshots : (reindex provider.signalKind provider.snapshots).snapshots =
      provider.snapshots := streamOrder_of_sorted h.sorted
  have hgates : (reindex provider.signalKind provider.snapshots).gateKeys = provider.gateKeys :=
    (congrArg gateKeysOf hsnapshots).trans h.gateKeys.symm
  have hlookup := resolvedAt_reindex provider.signalKind provider.snapshots t
  rw [SignalDataProvider.resolvedAt, hsnapshots, hgates, streamOrder_of_sorted h.sorted] at hlookup
  exact hlookup

end Indexed

section Lookups

inductive Operation
  | extend (snapshots : List SignalSnapshot)
  | nearest (timestamp : Instant)

def lookups : SignalDataProvider → List Operation → List (Instant × Option SignalSnapshot)
  | _, [] => []
  | provider, .extend snapshots :: operations => lookups (provider.extend snapshots).1 operations
  | provider, .nearest t :: operations => (t, provider.resolvedAt t) :: lookups provider operations

/-- The place in the stream of what a lookup shows; nothing is behind all. -/
def shownKey : Option SignalSnapshot → WithBot (ℤ ×ₗ ℤ ×ₗ ℤ)
  | none => ⊥
  | some snapshot => (snapshot.getOrderKey : WithBot (ℤ ×ₗ ℤ ×ₗ ℤ))

/-- At each lookup all snapshots ahead of the one shown last are available. -/
def Arrived (shown : Option SignalSnapshot) : SignalDataProvider → List Operation → Prop
  | _, [] => True
  | provider, .extend snapshots :: operations =>
      Arrived shown (provider.extend snapshots).1 operations
  | provider, .nearest t :: operations =>
      (∀ snapshot ∈ shown, ∀ other ∈ provider.snapshots,
        other.getOrderKey < snapshot.getOrderKey → other.getResolutionKey ≤ t) ∧
      Arrived (provider.resolvedAt t) provider operations

variable {provider : SignalDataProvider} {snapshot : SignalSnapshot} {t t' : Instant}

/-- A provider holds a snapshot that was shown at an instant: those ahead of it sort before it or
were available by then. -/
structure Holds (provider : SignalDataProvider) (snapshot : SignalSnapshot) (t : Instant) :
    Prop where
  available : snapshot.getResolutionKey ≤ t
  place : ∃ ahead behind, provider.snapshots = ahead ++ snapshot :: behind ∧
    ∀ other ∈ ahead, other.getOrderKey < snapshot.getOrderKey ∨ other.getResolutionKey ≤ t

theorem Holds.of_resolvedAt (hindexed : Indexed provider)
    (h : provider.resolvedAt t = some snapshot) : Holds provider snapshot t := by
  rw [hindexed.resolvedAt, current_entries_eq_some_iff] at h
  obtain ⟨ahead, behind, hsplit, hahead, hcome, -⟩ := h
  exact ⟨hcome, ahead, behind, hsplit, fun other hother => Or.inr (hahead other hother)⟩

theorem Holds.extend (hindexed : Indexed provider) (h : Holds provider snapshot t)
    (snapshots : List SignalSnapshot) : Holds (provider.extend snapshots).1 snapshot t := by
  obtain ⟨ahead, behind, hsplit, hahead⟩ := h.place
  have hsorted := hindexed.sorted
  rw [hsplit] at hsorted
  obtain ⟨ahead', behind', hmerged, hmem⟩ := insertionSort_merge sortsBefore hsorted
    (freshOf provider snapshots)
  refine ⟨h.available, ahead', behind', ?_, fun other hother => ?_⟩
  · rw [(hindexed.extend_snapshots snapshots).1, hsplit]
    exact hmerged
  · rcases (hmem other).mp hother with hold | hfresh
    · exact hahead other hold
    · exact Or.inl (not_le.mp hfresh.2)

/-- A later lookup shows the held snapshot or one behind it exactly if all that sort before it are
available. -/
theorem Holds.shown_iff (hindexed : Indexed provider) (h : Holds provider snapshot t)
    (hlater : t ≤ t') :
    shownKey (some snapshot) ≤ shownKey (provider.resolvedAt t') ↔
      ∀ other ∈ provider.snapshots, other.getOrderKey < snapshot.getOrderKey →
        other.getResolutionKey ≤ t' := by
  obtain ⟨ahead, behind, hsplit, hahead⟩ := h.place
  rw [hindexed.resolvedAt]
  constructor
  · intro hshown other hother hbefore
    cases hcurrent : Timeline.current (entries provider.snapshots) t' with
    | none =>
        rw [hcurrent] at hshown
        exact absurd (le_bot_iff.mp hshown) WithBot.coe_ne_bot
    | some snapshot' =>
        rw [hcurrent] at hshown
        have hkey : snapshot.getOrderKey ≤ snapshot'.getOrderKey := WithBot.coe_le_coe.mp hshown
        obtain ⟨ahead', behind', hsplit', hcome, -, -⟩ := current_entries_eq_some_iff.mp hcurrent
        have hsorted := hindexed.sorted
        rw [hsplit'] at hother hsorted
        obtain ⟨hfirst, hrest, hcross⟩ := List.pairwise_append.mp hsorted
        rcases List.mem_append.mp hother with hmem | hmem
        · exact hcome other hmem
        · have hnot : snapshot'.getOrderKey ≤ other.getOrderKey := by
            rcases List.mem_cons.mp hmem with rfl | hmem
            · exact le_rfl
            · exact (List.pairwise_cons.mp hrest).1 other hmem
          exact absurd hbefore (not_lt.mpr (hkey.trans hnot))
  · intro hcome
    have hreached : ∀ entry ∈ entries ahead, entry.1 ≤ t' := by
      intro entry hentry
      obtain ⟨other, hother, rfl⟩ := List.mem_map.mp hentry
      have hmem : other ∈ provider.snapshots := hsplit ▸ List.mem_append_left _ hother
      rcases hahead other hother with hbefore | havailable
      · exact hcome other hmem hbefore
      · exact havailable.trans hlater
    have hbehind : ∀ snapshot' ∈ Timeline.current (entries behind) t',
        snapshot.getOrderKey ≤ snapshot'.getOrderKey := by
      intro snapshot' hcurrent
      have hmem := Timeline.mem_of_current hcurrent
      rw [entries, List.map_map] at hmem
      obtain ⟨other, hother, rfl⟩ := List.mem_map.mp hmem
      have hsorted := hindexed.sorted
      rw [hsplit] at hsorted
      exact (List.pairwise_cons.mp (List.pairwise_append.mp hsorted).2.1).1 other hother
    have hentries : entries provider.snapshots =
        entries ahead ++ (snapshot.getResolutionKey, snapshot) :: entries behind := by
      rw [hsplit, entries, List.map_append, List.map_cons]
      rfl
    rw [hentries, Timeline.current_append hreached, Timeline.current_cons,
      if_pos (h.available.trans hlater)]
    cases hcurrent : Timeline.current (entries behind) t' with
    | none => exact le_rfl
    | some snapshot' => exact WithBot.coe_le_coe.mpr (hbehind snapshot' hcurrent)

def lookupTimes (operations : List Operation) : List Instant :=
  operations.filterMap fun
    | .extend _ => none
    | .nearest t => some t

theorem mem_lookups (hindexed : Indexed provider) {operations : List Operation}
    (h : (t, some snapshot) ∈ lookups provider operations) : snapshot.getResolutionKey ≤ t := by
  induction operations generalizing provider with
  | nil => cases h
  | cons operation operations ih =>
      cases operation with
      | extend snapshots => exact ih (hindexed.extend snapshots) h
      | nearest t' =>
          rcases List.mem_cons.mp h with heq | hmem
          · obtain ⟨rfl, hshown⟩ := Prod.mk.inj heq
            exact (Holds.of_resolvedAt hindexed hshown.symm).available
          · exact ih hindexed hmem

theorem shown_chain_iff (hindexed : Indexed provider) {shown : Option SignalSnapshot}
    {operations : List Operation} (htimes : (lookupTimes operations).Pairwise (· ≤ ·))
    (hheld : ∀ snapshot ∈ shown, ∃ t, Holds provider snapshot t ∧
      ∀ t' ∈ lookupTimes operations, t ≤ t') :
    (shownKey shown :: (lookups provider operations).map fun lookup =>
      shownKey lookup.2).IsChain (· ≤ ·) ↔ Arrived shown provider operations := by
  induction operations generalizing provider shown with
  | nil => exact iff_of_true (List.IsChain.singleton _) trivial
  | cons operation operations ih =>
      cases operation with
      | extend snapshots =>
          refine ih (hindexed.extend snapshots) htimes fun snapshot hshown => ?_
          obtain ⟨t, hholds, hearlier⟩ := hheld snapshot hshown
          exact ⟨t, hholds.extend hindexed snapshots, hearlier⟩
      | nearest t =>
          obtain ⟨hfirst, hrest⟩ := List.pairwise_cons.mp htimes
          rw [lookups, List.map_cons, List.isChain_cons_cons, Arrived]
          refine and_congr ?_ (ih hindexed hrest fun snapshot hshown =>
            ⟨t, Holds.of_resolvedAt hindexed hshown, hfirst⟩)
          cases shown with
          | none => exact iff_of_true bot_le fun snapshot hshown => (nomatch hshown)
          | some snapshot =>
              obtain ⟨t', hholds, hearlier⟩ := hheld snapshot rfl
              rw [hholds.shown_iff hindexed (hearlier t List.mem_cons_self)]
              exact ⟨fun h other hother => Option.some.inj hother ▸ h, fun h => h snapshot rfl⟩

/-- A lookup shows what is available. At lookups at later and later instants the stream never goes
back exactly if at each of them all that sorts before the snapshot shown last is available. -/
theorem lookups_forward_iff (series : SignalSeries) {operations : List Operation}
    (htimes : (lookupTimes operations).Pairwise (· ≤ ·)) :
    (∀ lookup ∈ lookups (SignalDataProvider.ofSeries series) operations,
      ∀ snapshot ∈ lookup.2, snapshot.getResolutionKey ≤ lookup.1) ∧
    ((lookups (SignalDataProvider.ofSeries series) operations).Pairwise (fun earlier later =>
        shownKey earlier.2 ≤ shownKey later.2) ↔
      Arrived none (SignalDataProvider.ofSeries series) operations) := by
  have hindexed : Indexed (SignalDataProvider.ofSeries series) := indexed_reindex _ _
  refine ⟨?_, ?_⟩
  · rintro ⟨t, shown⟩ hlookup snapshot hshown
    have hsome : shown = some snapshot := hshown
    rw [hsome] at hlookup
    exact mem_lookups hindexed hlookup
  · have hnone : ∀ snapshot ∈ (none : Option SignalSnapshot), ∃ t,
        Holds (SignalDataProvider.ofSeries series) snapshot t ∧
          ∀ t' ∈ lookupTimes operations, t ≤ t' := fun _ hshown => (nomatch hshown)
    rw [← shown_chain_iff hindexed htimes hnone, List.isChain_cons, List.isChain_iff_pairwise, List.pairwise_map]
    exact ⟨fun h => ⟨fun _ _ => bot_le, h⟩, fun h => h.2⟩

def delivered (seq : ℤ) (availableMsc : Instant) : SignalSnapshot :=
  numbered seq availableMsc availableMsc

def delivery (seq : ℤ) (availableMsc : Instant) : List Operation :=
  [.nearest 10, .extend [delivered seq availableMsc], .nearest 12]

theorem lookups_forward_available :
    (lookups (SignalDataProvider.ofSeries ⟨"k", [delivered 1 5, delivered 5 10]⟩)
        (delivery 3 11)).Pairwise fun earlier later =>
      shownKey earlier.2 ≤ shownKey later.2 := by
  refine ((lookups_forward_iff ⟨"k", [delivered 1 5, delivered 5 10]⟩ ?_).2).mpr ?_
  · decide +kernel
  · refine ⟨fun _ hshown => (nomatch hshown), ?_, trivial⟩
    decide +kernel

/-- A snapshot that is merged ahead of the one shown and is not yet available hides it. -/
theorem merge_goes_back :
    ¬∀ (series : SignalSeries) (operations : List Operation),
      (lookupTimes operations).Pairwise (· ≤ ·) →
        (lookups (SignalDataProvider.ofSeries series) operations).Pairwise fun earlier later =>
          shownKey earlier.2 ≤ shownKey later.2 := by
  intro h
  have hback := h ⟨"k", [delivered 1 5, delivered 5 10]⟩ (delivery 3 20) (by decide +kernel)
  revert hback
  decide +kernel

end Lookups

section Deliveries

/-- Deliver batches one after another; how many envelopes were new. -/
def deliver : SignalDataProvider → List (List SignalSnapshot) → SignalDataProvider × ℕ
  | provider, [] => (provider, 0)
  | provider, batch :: batches =>
      let rest := deliver (provider.extend batch).1 batches
      (rest.1, (provider.extend batch).2 + rest.2)

def taken (seen : List (ℤ × ℤ)) : List (List SignalSnapshot) → List SignalSnapshot
  | [] => []
  | batch :: batches =>
      (batch.filter fun snapshot => identity snapshot ∉ seen) ++
        taken (seen ++ batch.map identity) batches

def FreshOnce (seen : List (ℤ × ℤ)) : List (List SignalSnapshot) → Prop
  | [] => True
  | batch :: batches =>
      ((batch.filter fun snapshot => identity snapshot ∉ seen).map identity).Nodup ∧
        FreshOnce (seen ++ batch.map identity) batches

variable {provider : SignalDataProvider} {seen : List (ℤ × ℤ)}
  {batches : List (List SignalSnapshot)}

theorem mem_taken {batches : List (List SignalSnapshot)} {id : ℤ × ℤ} :
    id ∈ (taken seen batches).map identity ↔ id ∈ batches.flatten.map identity ∧ id ∉ seen := by
  induction batches generalizing seen with
  | nil => simp [taken]
  | cons batch batches ih =>
      have hfresh : id ∈ (batch.filter fun snapshot => identity snapshot ∉ seen).map identity ↔
          id ∈ batch.map identity ∧ id ∉ seen := by
        simp only [List.mem_map, List.mem_filter, decide_eq_true_eq]
        constructor
        · rintro ⟨snapshot, ⟨hmem, hnew⟩, rfl⟩
          exact ⟨⟨snapshot, hmem, rfl⟩, hnew⟩
        · rintro ⟨⟨snapshot, hmem, rfl⟩, hnew⟩
          exact ⟨snapshot, ⟨hmem, hnew⟩, rfl⟩
      rw [taken, List.map_append, List.mem_append, hfresh, ih, List.flatten_cons, List.map_append,
        List.mem_append, List.mem_append]
      tauto

theorem taken_subset (seen : List (ℤ × ℤ)) (batches : List (List SignalSnapshot)) :
    taken seen batches ⊆ batches.flatten := by
  induction batches generalizing seen with
  | nil => exact List.nil_subset _
  | cons batch batches ih =>
      rw [taken, List.flatten_cons]
      exact List.append_subset.mpr
        ⟨List.subset_append_of_subset_left _ List.filter_sublist.subset,
          List.subset_append_of_subset_right _ (ih _)⟩

/-- The identities taken are distinct exactly if each batch is fresh once. -/
theorem nodup_taken_iff :
    ((taken seen batches).map identity).Nodup ↔ FreshOnce seen batches := by
  induction batches generalizing seen with
  | nil => exact iff_of_true List.nodup_nil trivial
  | cons batch batches ih =>
      rw [taken, List.map_append, List.nodup_append', FreshOnce, ih]
      refine and_congr_right fun _ => and_iff_left ?_
      intro id hfresh hlater
      obtain ⟨snapshot, hmem, rfl⟩ := List.mem_map.mp hfresh
      refine (mem_taken.mp hlater).2 (List.mem_append_right _ ?_)
      exact List.mem_map_of_mem (List.mem_of_mem_filter hmem)

theorem taken_congr {seen seen' : List (ℤ × ℤ)} (h : ∀ id, id ∈ seen ↔ id ∈ seen') :
    taken seen batches = taken seen' batches := by
  induction batches generalizing seen seen' with
  | nil => rfl
  | cons batch batches ih =>
      have hlater : taken (seen ++ batch.map identity) batches =
          taken (seen' ++ batch.map identity) batches := by
        apply ih
        intro id
        rw [List.mem_append, List.mem_append, h]
      rw [taken, taken, hlater]
      congr 1
      apply List.filter_congr
      intro snapshot _
      simp only [h]

theorem deliver_perm (hindexed : Indexed provider) :
    Indexed (deliver provider batches).1 ∧
      (deliver provider batches).1.snapshots.Perm
        (provider.snapshots ++ taken provider.seen batches) ∧
      (deliver provider batches).2 = (taken provider.seen batches).length := by
  induction batches generalizing provider with
  | nil => exact ⟨hindexed, by rw [deliver, taken, List.append_nil], rfl⟩
  | cons batch batches ih =>
      obtain ⟨hsnapshots, hcount⟩ := hindexed.extend_snapshots batch
      obtain ⟨hfinal, hperm, hrest⟩ := ih (hindexed.extend batch)
      have hstep : (provider.extend batch).1.snapshots.Perm
          (provider.snapshots ++ freshOf provider batch) := by
        rw [hsnapshots]
        exact List.perm_insertionSort _ _
      have hseen : taken (provider.extend batch).1.seen batches =
          taken (provider.seen ++ batch.map identity) batches := by
        apply taken_congr
        intro id
        rw [(hindexed.extend batch).seen, (hstep.map identity).mem_iff, List.map_append,
          List.mem_append, List.mem_append, ← hindexed.seen]
        have hfresh := @mem_taken provider.seen [batch] id
        rw [taken, taken, List.append_nil, List.flatten_singleton] at hfresh
        rw [freshOf, hfresh]
        tauto
      rw [hseen] at hperm hrest
      refine ⟨hfinal, ?_, ?_⟩
      · rw [deliver, taken, ← List.append_assoc]
        exact hperm.trans (hstep.append_right _)
      · rw [deliver, taken, List.length_append, ← hrest, hcount]
        rfl

def envelopes (series : SignalSeries) (batches : List (List SignalSnapshot)) :
    List SignalSnapshot :=
  series.snapshots ++ batches.flatten

/-- Delivered envelopes are held exactly once: one snapshot stands for each identity, the counts
are of those not there at first, and the series is that of the envelopes in whichever order. -/
structure ExactlyOnce (series : SignalSeries) (batches : List (List SignalSnapshot)) : Prop where
  single : ((deliver (SignalDataProvider.ofSeries series) batches).1.snapshots.map identity).Nodup
  complete : ∀ id,
    id ∈ (deliver (SignalDataProvider.ofSeries series) batches).1.snapshots.map identity ↔
      id ∈ (envelopes series batches).map identity
  counted : (deliver (SignalDataProvider.ofSeries series) batches).2 =
    ((batches.flatten.map identity).filter fun id =>
      id ∉ series.snapshots.map identity).dedup.length
  canonical : ∀ snapshots : List SignalSnapshot, snapshots.Nodup →
    (∀ snapshot, snapshot ∈ snapshots ↔ snapshot ∈ envelopes series batches) →
      (deliver (SignalDataProvider.ofSeries series) batches).1.snapshots = streamOrder snapshots

/-- A snapshot numbered -1 of epoch -1 sorts like an unnumbered one of the instant 0. -/
def Tied (snapshot other : SignalSnapshot) : Prop :=
  snapshot.seq = some (-1) ∧ snapshot.streamEpoch = some (-1) ∧
    (other.seq = none ∨ other.streamEpoch = none) ∧ other.getResolutionKey = 0

/-- No identity is repeated at first or within the batch that brings it, and no envelopes are
tied. -/
structure DeliveredOnce (series : SignalSeries) (batches : List (List SignalSnapshot)) : Prop where
  initial : (series.snapshots.map identity).Nodup
  fresh : FreshOnce (series.snapshots.map identity) batches
  untied : ∀ snapshot ∈ envelopes series batches, ∀ other ∈ envelopes series batches,
    ¬Tied snapshot other

theorem eq_of_mem_palindrome {α : Type} {xs : List α} (hnodup : xs.Nodup)
    (hreverse : xs.reverse = xs) {a b : α} (ha : a ∈ xs) (hb : b ∈ xs) : a = b := by
  cases xs with
  | nil => cases ha
  | cons x xs =>
      cases hlast : xs.reverse with
      | nil =>
          rw [List.reverse_eq_nil_iff.mp hlast, List.mem_singleton] at ha hb
          rw [ha, hb]
      | cons y ys =>
          rw [List.reverse_cons, hlast, List.cons_append, List.cons.injEq] at hreverse
          have hmem : y ∈ xs := List.mem_reverse.mp (hlast ▸ List.mem_cons_self)
          exact absurd (hreverse.1 ▸ hmem) (List.nodup_cons.mp hnodup).1

theorem filter_streamOrder (key : ℤ ×ₗ ℤ ×ₗ ℤ) (snapshots : List SignalSnapshot) :
    (streamOrder snapshots).filter (fun snapshot => snapshot.getOrderKey = key) =
      snapshots.filter fun snapshot => snapshot.getOrderKey = key := by
  rw [streamOrder, ← insertionSort_filter]
  apply List.Pairwise.insertionSort_eq
  apply List.pairwise_of_forall_mem_list
  intro snapshot hsnapshot later hlater
  have hkey := (List.mem_filter.mp hsnapshot).2
  have hkey' := (List.mem_filter.mp hlater).2
  rw [decide_eq_true_eq] at hkey hkey'
  exact (hkey.trans hkey'.symm).le

/-- A snapshot is numbered, or sorts by the instant it became available. -/
theorem numbered_or_not (snapshot : SignalSnapshot) :
    (∃ seq epoch, snapshot.seq = some seq ∧ snapshot.streamEpoch = some epoch ∧
      snapshot.getOrderKey = toLex (epoch, toLex (seq, 0)) ∧ identity snapshot = (epoch, seq)) ∨
    (snapshot.seq = none ∨ snapshot.streamEpoch = none) ∧
      snapshot.getOrderKey = toLex (-1, toLex (-1, snapshot.getResolutionKey)) ∧
        identity snapshot = (-1, epochMs snapshot.getResolutionKey) := by
  unfold SignalSnapshot.getOrderKey identity
  cases hseq : snapshot.seq with
  | none => exact Or.inr ⟨Or.inl rfl, rfl, rfl⟩
  | some seq =>
      cases hepoch : snapshot.streamEpoch with
      | none => exact Or.inr ⟨Or.inr rfl, rfl, rfl⟩
      | some epoch => exact Or.inl ⟨seq, epoch, rfl, rfl, rfl, rfl⟩

theorem identity_eq_or_tied {a b : SignalSnapshot} (h : a.getOrderKey = b.getOrderKey) :
    identity a = identity b ∨ Tied a b ∨ Tied b a := by
  rcases numbered_or_not a with ⟨seq, epoch, hseq, hepoch, hkey, hid⟩ | ⟨hnone, hkey, hid⟩ <;>
    rcases numbered_or_not b with ⟨seq', epoch', hseq', hepoch', hkey', hid'⟩ | ⟨hnone', hkey', hid'⟩
  · rw [hkey, hkey'] at h
    cases h
    exact Or.inl (hid.trans hid'.symm)
  · rw [hkey, hkey'] at h
    simp only [toLex_inj, Prod.mk.injEq] at h
    obtain ⟨rfl, rfl, hinstant⟩ := h
    exact Or.inr (Or.inl ⟨hseq, hepoch, hnone', hinstant.symm⟩)
  · rw [hkey, hkey'] at h
    simp only [toLex_inj, Prod.mk.injEq] at h
    obtain ⟨rfl, rfl, hinstant⟩ := h
    exact Or.inr (Or.inr ⟨hseq', hepoch', hnone, hinstant⟩)
  · rw [hkey, hkey'] at h
    simp only [toLex_inj, Prod.mk.injEq, true_and] at h
    rw [hid, hid', h]
    exact Or.inl rfl

theorem Tied.getOrderKey {a b : SignalSnapshot} (h : Tied a b) :
    a.getOrderKey = b.getOrderKey := by
  obtain ⟨hseq, hepoch, hnone, hinstant⟩ := h
  rcases numbered_or_not b with ⟨seq, epoch, hseq', hepoch', -⟩ | ⟨-, hkey, -⟩
  · rw [hseq', hepoch'] at hnone
    rcases hnone with hnone | hnone <;> cases hnone
  · rw [hkey, hinstant, SignalSnapshot.getOrderKey, hseq, hepoch]

variable {series : SignalSeries}

theorem ofSeries_held (series : SignalSeries) (batches : List (List SignalSnapshot)) :
    (deliver (SignalDataProvider.ofSeries series) batches).1.snapshots.Perm
        (series.snapshots ++ taken (series.snapshots.map identity) batches) ∧
      (deliver (SignalDataProvider.ofSeries series) batches).2 =
        (taken (series.snapshots.map identity) batches).length := by
  have hsorted : (streamOrder series.snapshots).Perm series.snapshots := List.perm_insertionSort _ _
  obtain ⟨-, hperm, hcount⟩ := @deliver_perm _ batches
    (indexed_reindex series.signalKind series.snapshots)
  have hseen : taken (SignalDataProvider.ofSeries series).seen batches =
      taken (series.snapshots.map identity) batches :=
    taken_congr fun id => (hsorted.map identity).mem_iff
  refine ⟨?_, ?_⟩
  · rw [← hseen]
    exact hperm.trans (hsorted.append_right _)
  · rw [← hseen]
    exact hcount

theorem held_ids (id : ℤ × ℤ) :
    id ∈ (deliver (SignalDataProvider.ofSeries series) batches).1.snapshots.map identity ↔
      id ∈ (envelopes series batches).map identity := by
  rw [((ofSeries_held series batches).1.map identity).mem_iff, envelopes, List.map_append,
    List.map_append, List.mem_append, List.mem_append, mem_taken]
  tauto

/-- One snapshot stands for each identity exactly if none is repeated at first or in a batch. -/
theorem single_iff :
    ((deliver (SignalDataProvider.ofSeries series) batches).1.snapshots.map identity).Nodup ↔
      (series.snapshots.map identity).Nodup ∧
        FreshOnce (series.snapshots.map identity) batches := by
  rw [((ofSeries_held series batches).1.map identity).nodup_iff, List.map_append,
    List.nodup_append', nodup_taken_iff]
  refine and_congr_right fun _ => and_iff_left ?_
  intro id hinitial htaken
  exact (mem_taken.mp htaken).2 hinitial

theorem held_envelopes
    (hidentical : ∀ a ∈ envelopes series batches, ∀ b ∈ envelopes series batches,
      identity a = identity b → a = b) (snapshot : SignalSnapshot) :
    snapshot ∈ (deliver (SignalDataProvider.ofSeries series) batches).1.snapshots ↔
      snapshot ∈ envelopes series batches := by
  have hsubset : ∀ other ∈ (deliver (SignalDataProvider.ofSeries series) batches).1.snapshots,
      other ∈ envelopes series batches := by
    intro other hother
    rcases List.mem_append.mp ((ofSeries_held series batches).1.mem_iff.mp hother) with hmem | hmem
    · exact List.mem_append_left _ hmem
    · exact List.mem_append_right _ (taken_subset _ _ hmem)
  refine ⟨hsubset snapshot, fun hmem => ?_⟩
  obtain ⟨other, hother, hid⟩ := List.mem_map.mp ((held_ids _).mpr (List.mem_map_of_mem hmem))
  rw [← hidentical other (hsubset other hother) snapshot hmem hid]
  exact hother

theorem counted_of_fresh (h : FreshOnce (series.snapshots.map identity) batches) :
    (deliver (SignalDataProvider.ofSeries series) batches).2 =
      ((batches.flatten.map identity).filter fun id =>
        id ∉ series.snapshots.map identity).dedup.length := by
  rw [(ofSeries_held series batches).2, ← List.length_map identity]
  apply List.Perm.length_eq
  refine (List.perm_ext_iff_of_nodup (nodup_taken_iff.mpr h) (List.nodup_dedup _)).mpr fun id => ?_
  rw [List.mem_dedup, List.mem_filter, mem_taken, decide_eq_true_eq]

theorem held_sorted (series : SignalSeries) (batches : List (List SignalSnapshot)) :
    (deliver (SignalDataProvider.ofSeries series) batches).1.snapshots.Pairwise sortsBefore :=
  (deliver_perm (indexed_reindex series.signalKind series.snapshots)).1.sorted

/-- Envelopes delivered at least once are held exactly once if and only if none is repeated at
first or within the batch that brings it, and none are tied. -/
theorem exactlyOnce_iff
    (hidentical : ∀ a ∈ envelopes series batches, ∀ b ∈ envelopes series batches,
      identity a = identity b → a = b) :
    ExactlyOnce series batches ↔ DeliveredOnce series batches := by
  have hheld := held_envelopes hidentical
  constructor
  · intro h
    obtain ⟨hinitial, hfresh⟩ := single_iff.mp h.single
    refine ⟨hinitial, hfresh, fun a ha b hb htied => ?_⟩
    -- the two can be told apart by the order they are listed in
    have hnodup := h.single.of_map
    have hback := h.canonical _ (List.nodup_reverse.mpr hnodup) fun snapshot => by
      rw [List.mem_reverse, hheld]
    have halike := congrArg (List.filter fun snapshot : SignalSnapshot =>
      snapshot.getOrderKey = a.getOrderKey) hback
    rw [filter_streamOrder, List.filter_reverse] at halike
    have hsame : a = b := by
      refine eq_of_mem_palindrome (hnodup.filter _) halike.symm
        (List.mem_filter.mpr ⟨(hheld a).mpr ha, ?_⟩) (List.mem_filter.mpr ⟨(hheld b).mpr hb, ?_⟩)
      · exact decide_eq_true rfl
      · exact decide_eq_true htied.getOrderKey.symm
    obtain ⟨hseq, hepoch, hnone, -⟩ := htied
    rw [← hsame, hseq, hepoch] at hnone
    rcases hnone with hnone | hnone <;> cases hnone
  · intro h
    have hsingle := single_iff.mpr ⟨h.initial, h.fresh⟩
    refine ⟨hsingle, held_ids, counted_of_fresh h.fresh, fun snapshots hnodup hmem => ?_⟩
    have hperm : (deliver (SignalDataProvider.ofSeries series) batches).1.snapshots.Perm
        (streamOrder snapshots) := by
      refine ((List.perm_ext_iff_of_nodup hsingle.of_map hnodup).mpr fun snapshot => ?_).trans
        (List.perm_insertionSort _ _).symm
      rw [hheld, hmem]
    refine hperm.eq_of_pairwise (fun a b ha hb hab hba => ?_) (held_sorted series batches)
      (streamOrder_sorted snapshots)
    have ha' := (hheld a).mp ha
    have hb' := (hmem b).mp ((List.mem_insertionSort _).mp hb)
    rcases identity_eq_or_tied (le_antisymm hab hba) with hid | htied | htied
    · exact hidentical a ha' b hb' hid
    · exact absurd htied (h.untied a ha' b hb')
    · exact absurd htied (h.untied b hb' a ha')

theorem exactlyOnce_redelivered :
    ExactlyOnce ⟨"k", [delivered 1 5]⟩ [[delivered 2 10, delivered 1 5], [delivered 2 10]] := by
  refine (exactlyOnce_iff ?_).mpr ⟨?_, ?_, ?_⟩
  · decide +kernel
  · decide +kernel
  · exact ⟨by decide +kernel, by decide +kernel, trivial⟩
  · unfold Tied
    decide +kernel

/-- An envelope that comes twice in one batch is held and counted twice. -/
theorem batch_repeats :
    ¬∀ (series : SignalSeries) (batches : List (List SignalSnapshot)),
      (∀ a ∈ envelopes series batches, ∀ b ∈ envelopes series batches,
        identity a = identity b → a = b) → ExactlyOnce series batches := by
  intro h
  have honce := h ⟨"k", []⟩ [[delivered 1 5, delivered 1 5]] (by decide +kernel)
  have hsingle := honce.single
  revert hsingle
  decide +kernel

end Deliveries

end Finiex.SignalRuns
