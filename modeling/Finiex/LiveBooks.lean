import Finiex.LiveSpecs
import Finiex.AuditTrail

namespace Finiex.LiveBooks

open Finiex.Types
open Finiex.Lib
open Finiex.Lib.Run
open Finiex.Orders
open Finiex.OrderBooks
open Finiex.Portfolio
open Finiex.Portfolio.PortfolioManager
open Finiex.Executor
open Finiex.LiveTypes
open Finiex.Live
open Finiex.LiveSpecs

/-- The portfolio has given out this id. -/
def Issued (counter : ℕ) (id : String) : Prop :=
  ∃ symbol n, n ≤ counter ∧ id = positionIdOf symbol n

theorem Issued.mono {counter counter' : ℕ} {id : String} (h : Issued counter id)
    (hle : counter ≤ counter') : Issued counter' id := by
  obtain ⟨symbol, n, hn, hid⟩ := h
  exact ⟨symbol, n, hn.trans hle, hid⟩

theorem not_issued_next (counter : ℕ) (symbol : String) :
    ¬ Issued counter (positionIdOf symbol (counter + 1)) := by
  rintro ⟨symbol', n, hn, heq⟩
  have hcounter := Labels.counted_inj heq
  omega

section Books

variable {pendings : Dict String PendingOrder} {index : Dict String String}
  {limits : List PendingOrder} {items : List Item} {pm : PortfolioManager}

inductive Known (pendings : Dict String PendingOrder) (index : Dict String String)
    (limits : List PendingOrder) (items : List Item) (pm : PortfolioManager) : String → Prop
  | pending {id} : pendings.get? id ≠ none → Known pendings index limits items pm id
  | indexed {id ref} : index.get? ref = some id → Known pendings index limits items pm id
  | resting {id} : id ∈ orderIds limits → Known pendings index limits items pm id
  | traveling {id kind} : kind ≠ .other → (kind, id) ∈ items →
      Known pendings index limits items pm id
  | position {id} : pm.getPosition id ≠ none → Known pendings index limits items pm id

/-- The books agree with each other. -/
structure Sound (pendings : Dict String PendingOrder) (index : Dict String String)
    (limits : List PendingOrder) (items : List Item) (pm : PortfolioManager) : Prop where
  keyed : ∀ k p, pendings.get? k = some p → p.pendingOrderId = k
  closes : ∀ k p, pendings.get? k = some p → p.isOpen = false → p.direction = none
  opens : ∀ k p, pendings.get? k = some p → p.isOpen = true → pm.getPosition k = none
  emptyRef : index.get? "" = none
  nodup : (orderIds limits).Nodup
  resting : ∀ id ∈ orderIds limits,
    pendings.get? id = none ∧ pm.getPosition id = none ∧ (.openSubmit, id) ∉ items
  submits : ∀ id, items.count (.openSubmit, id) ≤ 1
  submitted : ∀ id, (.openSubmit, id) ∈ items →
    pm.getPosition id = none ∧ (∀ p, pendings.get? id = some p → p.isOpen = true) ∧
      ∀ ref, index.get? ref ≠ some id
  closing : ∀ id, (.closeSubmit, id) ∈ items → (.openSubmit, id) ∉ items
  issued : ∀ id, Known pendings index limits items pm id → Issued pm.positionCounter id

namespace Sound

/-- A position may appear for an id that is nowhere else in the books. -/
theorem portfolio {pm' : PortfolioManager} (h : Sound pendings index limits items pm)
    (hcounter : pm.positionCounter ≤ pm'.positionCounter)
    (hpositions : ∀ k, pm'.getPosition k ≠ none → pm.getPosition k ≠ none ∨
      ((∀ p, pendings.get? k = some p → p.isOpen = false) ∧ k ∉ orderIds limits ∧
        (.openSubmit, k) ∉ items ∧ Issued pm.positionCounter k)) :
    Sound pendings index limits items pm' where
  keyed := h.keyed
  closes := h.closes
  opens k p hget hopen := by
    by_contra hsome
    rcases hpositions k hsome with hold | ⟨hclosed, -⟩
    · exact hold (h.opens k p hget hopen)
    · rw [hclosed p hget] at hopen
      cases hopen
  emptyRef := h.emptyRef
  nodup := h.nodup
  resting id hid := by
    obtain ⟨hpending, hnone, hitem⟩ := h.resting id hid
    refine ⟨hpending, ?_, hitem⟩
    by_contra hsome
    rcases hpositions id hsome with hold | ⟨-, hfree, -⟩
    · exact hold hnone
    · exact hfree hid
  submits := h.submits
  submitted id hitem := by
    obtain ⟨hnone, hopen, hindex⟩ := h.submitted id hitem
    refine ⟨?_, hopen, hindex⟩
    by_contra hsome
    rcases hpositions id hsome with hold | ⟨-, -, hfree, -⟩
    · exact hold hnone
    · exact hfree hitem
  closing := h.closing
  issued id hknown := by
    cases hknown with
    | position hsome =>
        rcases hpositions id hsome with hold | ⟨-, -, -, hissued⟩
        · exact (h.issued id (.position hold)).mono hcounter
        · exact hissued.mono hcounter
    | pending hget => exact (h.issued id (.pending hget)).mono hcounter
    | indexed hget => exact (h.issued id (.indexed hget)).mono hcounter
    | resting hmem => exact (h.issued id (.resting hmem)).mono hcounter
    | traveling hkind hmem => exact (h.issued id (.traveling hkind hmem)).mono hcounter

theorem items_sublist {items' : List Item} (h : Sound pendings index limits items pm)
    (hsub : List.Sublist items' items) : Sound pendings index limits items' pm where
  keyed := h.keyed
  closes := h.closes
  opens := h.opens
  emptyRef := h.emptyRef
  nodup := h.nodup
  resting id hid := by
    obtain ⟨hpending, hnone, hitem⟩ := h.resting id hid
    exact ⟨hpending, hnone, fun hmem => hitem (hsub.subset hmem)⟩
  submits id := (hsub.count_le _).trans (h.submits id)
  submitted id hitem := h.submitted id (hsub.subset hitem)
  closing id hclose hopen := h.closing id (hsub.subset hclose) (hsub.subset hopen)
  issued id hknown := by
    apply h.issued id
    cases hknown with
    | pending hget => exact .pending hget
    | indexed hget => exact .indexed hget
    | resting hmem => exact .resting hmem
    | traveling hkind hmem => exact .traveling hkind (hsub.subset hmem)
    | position hsome => exact .position hsome

/-- Jobs other than the submission of a MARKET order may be enqueued for known orders. -/
theorem items_append {jobs : List Item} (h : Sound pendings index limits items pm)
    (hjobs : ∀ item ∈ jobs, item.1 ≠ .openSubmit ∧
      (item.1 = .closeSubmit → (.openSubmit, item.2) ∉ items) ∧
      (item.1 = .other ∨ Issued pm.positionCounter item.2)) :
    Sound pendings index limits (items ++ jobs) pm where
  keyed := h.keyed
  closes := h.closes
  opens := h.opens
  emptyRef := h.emptyRef
  nodup := h.nodup
  resting id hid := by
    obtain ⟨hpending, hnone, hitem⟩ := h.resting id hid
    refine ⟨hpending, hnone, fun hmem => ?_⟩
    rcases List.mem_append.mp hmem with hold | hnew
    · exact hitem hold
    · exact (hjobs _ hnew).1 rfl
  submits id := by
    rw [List.count_append, List.count_eq_zero_of_not_mem fun hmem => (hjobs _ hmem).1 rfl]
    exact h.submits id
  submitted id hmem := by
    rcases List.mem_append.mp hmem with hold | hnew
    · exact h.submitted id hold
    · exact absurd rfl (hjobs _ hnew).1
  closing id hclose hopen := by
    rcases List.mem_append.mp hopen with hold | hnew
    · rcases List.mem_append.mp hclose with hclose | hclose
      · exact h.closing id hclose hold
      · exact (hjobs _ hclose).2.1 rfl hold
    · exact (hjobs _ hnew).1 rfl
  issued id hknown := by
    cases hknown with
    | pending hget => exact h.issued id (.pending hget)
    | indexed hget => exact h.issued id (.indexed hget)
    | resting hmem => exact h.issued id (.resting hmem)
    | position hsome => exact h.issued id (.position hsome)
    | traveling hkind hmem =>
        rcases List.mem_append.mp hmem with hold | hnew
        · exact h.issued id (.traveling hkind hold)
        · exact (hjobs _ hnew).2.2.resolve_left hkind

/-- The submission of a MARKET order that is nowhere but among the pending orders. -/
theorem items_openSubmit {id : String} (h : Sound pendings index limits items pm)
    (hissued : Issued pm.positionCounter id) (hnew : (.openSubmit, id) ∉ items)
    (hclosing : (.closeSubmit, id) ∉ items) (hresting : id ∉ orderIds limits)
    (hposition : pm.getPosition id = none)
    (hpending : ∀ p, pendings.get? id = some p → p.isOpen = true)
    (hindex : ∀ ref, index.get? ref ≠ some id) :
    Sound pendings index limits (items ++ [(.openSubmit, id)]) pm where
  keyed := h.keyed
  closes := h.closes
  opens := h.opens
  emptyRef := h.emptyRef
  nodup := h.nodup
  resting k hk := by
    obtain ⟨hnone, hfree, hitem⟩ := h.resting k hk
    refine ⟨hnone, hfree, fun hmem => ?_⟩
    rcases List.mem_append.mp hmem with hold | hlast
    · exact hitem hold
    · cases List.mem_singleton.mp hlast
      exact hresting hk
  submits k := by
    rw [List.count_append]
    by_cases hk : k = id
    · subst hk
      rw [List.count_eq_zero_of_not_mem hnew]
      simp
    · have hne : (ItemKind.openSubmit, k) ≠ (.openSubmit, id) := fun heq => hk (congrArg Prod.snd heq)
      rw [List.count_singleton, beq_eq_false_iff_ne.mpr hne.symm]
      exact h.submits k
  submitted k hmem := by
    rcases List.mem_append.mp hmem with hold | hlast
    · exact h.submitted k hold
    · cases List.mem_singleton.mp hlast
      exact ⟨hposition, hpending, hindex⟩
  closing k hclose hopen := by
    rcases List.mem_append.mp hclose with hclose | hlast
    · rcases List.mem_append.mp hopen with hold | hlast
      · exact h.closing k hclose hold
      · cases List.mem_singleton.mp hlast
        exact hclosing hclose
    · cases List.mem_singleton.mp hlast
  issued k hknown := by
    cases hknown with
    | pending hget => exact h.issued k (.pending hget)
    | indexed hget => exact h.issued k (.indexed hget)
    | resting hmem => exact h.issued k (.resting hmem)
    | position hsome => exact h.issued k (.position hsome)
    | traveling hkind hmem =>
        rcases List.mem_append.mp hmem with hold | hlast
        · exact h.issued k (.traveling hkind hold)
        · cases List.mem_singleton.mp hlast
          exact hissued

theorem limits_sublist {limits' : List PendingOrder}
    (h : Sound pendings index limits items pm)
    (hsub : List.Sublist (orderIds limits') (orderIds limits)) :
    Sound pendings index limits' items pm where
  keyed := h.keyed
  closes := h.closes
  opens := h.opens
  emptyRef := h.emptyRef
  nodup := h.nodup.sublist hsub
  resting id hid := h.resting id (hsub.subset hid)
  submits := h.submits
  submitted := h.submitted
  closing := h.closing
  issued id hknown := by
    apply h.issued id
    cases hknown with
    | pending hget => exact .pending hget
    | indexed hget => exact .indexed hget
    | resting hmem => exact .resting (hsub.subset hmem)
    | traveling hkind hmem => exact .traveling hkind hmem
    | position hsome => exact .position hsome

/-- A resting order is added under an id that is nowhere in the books. -/
theorem limits_append (order : PendingOrder) (h : Sound pendings index limits items pm)
    (hissued : Issued pm.positionCounter order.pendingOrderId)
    (hnew : ¬ Known pendings index limits items pm order.pendingOrderId) :
    Sound pendings index (limits ++ [order]) items pm where
  keyed := h.keyed
  closes := h.closes
  opens := h.opens
  emptyRef := h.emptyRef
  nodup := by
    rw [orderIds_append, List.nodup_append]
    refine ⟨h.nodup, List.nodup_singleton _, ?_⟩
    rintro id hid _ hlast rfl
    rw [orderIds_cons, orderIds_nil, List.mem_singleton] at hlast
    rw [hlast] at hid
    exact hnew (.resting hid)
  resting id hid := by
    rw [orderIds_append, List.mem_append] at hid
    rcases hid with hold | hlast
    · exact h.resting id hold
    · rw [orderIds_cons, orderIds_nil, List.mem_singleton] at hlast
      rw [hlast]
      refine ⟨?_, ?_, fun hmem => hnew (.traveling (by simp) hmem)⟩
      · exact not_not.mp fun hne => hnew (.pending hne)
      · exact not_not.mp fun hne => hnew (.position hne)
  submits := h.submits
  submitted := h.submitted
  closing := h.closing
  issued id hknown := by
    cases hknown with
    | pending hget => exact h.issued id (.pending hget)
    | indexed hget => exact h.issued id (.indexed hget)
    | traveling hkind hmem => exact h.issued id (.traveling hkind hmem)
    | position hsome => exact h.issued id (.position hsome)
    | resting hmem =>
        rw [orderIds_append, List.mem_append] at hmem
        rcases hmem with hold | hlast
        · exact h.issued id (.resting hold)
        · rw [orderIds_cons, orderIds_nil, List.mem_singleton] at hlast
          rw [hlast]
          exact hissued

theorem erasePending (h : Sound pendings index limits items pm) (id : String) :
    Sound (pendings.erase id) index limits items pm := by
  have hold : ∀ k p, (pendings.erase id).get? k = some p → pendings.get? k = some p := by
    intro k p hget
    by_cases hk : k = id
    · rw [hk, Dict.get?_erase_self] at hget
      cases hget
    · rwa [Dict.get?_erase_ne _ hk] at hget
  have hnone : ∀ k, pendings.get? k = none → (pendings.erase id).get? k = none := by
    intro k hget
    by_contra hsome
    obtain ⟨p, hp⟩ := Option.ne_none_iff_exists'.mp hsome
    rw [hold k p hp] at hget
    cases hget
  refine ⟨fun k p hget => h.keyed k p (hold k p hget), fun k p hget => h.closes k p (hold k p hget),
    fun k p hget => h.opens k p (hold k p hget), h.emptyRef, h.nodup, fun k hk => ?_, h.submits,
    fun k hk => ?_, h.closing, fun k hknown => h.issued k ?_⟩
  · obtain ⟨hget, hrest⟩ := h.resting k hk
    exact ⟨hnone k hget, hrest⟩
  · obtain ⟨hposition, hopen, hindex⟩ := h.submitted k hk
    exact ⟨hposition, fun p hget => hopen p (hold k p hget), hindex⟩
  · cases hknown with
    | pending hget => exact .pending fun heq => hget (hnone k heq)
    | indexed hget => exact .indexed hget
    | resting hmem => exact .resting hmem
    | traveling hkind hmem => exact .traveling hkind hmem
    | position hsome => exact .position hsome

theorem setPending (order : PendingOrder) (h : Sound pendings index limits items pm)
    (hresting : order.pendingOrderId ∉ orderIds limits)
    (hclose : order.isOpen = false → order.direction = none)
    (hopen : order.isOpen = true → pm.getPosition order.pendingOrderId = none)
    (hsubmitted : (.openSubmit, order.pendingOrderId) ∈ items → order.isOpen = true)
    (hissued : Issued pm.positionCounter order.pendingOrderId) :
    Sound (pendings.set order.pendingOrderId order) index limits items pm := by
  have hcases : ∀ k p, (pendings.set order.pendingOrderId order).get? k = some p →
      (k = order.pendingOrderId ∧ p = order) ∨ pendings.get? k = some p := by
    intro k p hget
    by_cases hk : k = order.pendingOrderId
    · rw [hk, Dict.get?_set_self] at hget
      exact .inl ⟨hk, (Option.some.inj hget).symm⟩
    · rw [Dict.get?_set_ne _ _ hk] at hget
      exact .inr hget
  refine ⟨fun k p hget => ?_, fun k p hget => ?_, fun k p hget => ?_, h.emptyRef, h.nodup,
    fun k hk => ?_, h.submits, fun k hk => ?_, h.closing, fun k hknown => ?_⟩
  · rcases hcases k p hget with ⟨rfl, rfl⟩ | hget
    · rfl
    · exact h.keyed k p hget
  · rcases hcases k p hget with ⟨rfl, rfl⟩ | hget
    · exact hclose
    · exact h.closes k p hget
  · rcases hcases k p hget with ⟨rfl, rfl⟩ | hget
    · exact hopen
    · exact h.opens k p hget
  · obtain ⟨hget, hrest⟩ := h.resting k hk
    have hne : k ≠ order.pendingOrderId := fun heq => hresting (heq ▸ hk)
    exact ⟨(Dict.get?_set_ne _ _ hne).trans hget, hrest⟩
  · obtain ⟨hposition, hopens, hindex⟩ := h.submitted k hk
    refine ⟨hposition, fun p hget => ?_, hindex⟩
    rcases hcases k p hget with ⟨rfl, rfl⟩ | hget
    · exact hsubmitted hk
    · exact hopens p hget
  · cases hknown with
    | pending hget =>
        obtain ⟨p, hp⟩ := Option.ne_none_iff_exists'.mp hget
        rcases hcases k p hp with ⟨rfl, rfl⟩ | hget
        · exact hissued
        · refine h.issued k (.pending ?_)
          rw [hget]
          simp
    | indexed hget => exact h.issued k (.indexed hget)
    | resting hmem => exact h.issued k (.resting hmem)
    | traveling hkind hmem => exact h.issued k (.traveling hkind hmem)
    | position hsome => exact h.issued k (.position hsome)

theorem setPendingRef {id : String} {pending : PendingOrder}
    (h : Sound pendings index limits items pm) (hget : pendings.get? id = some pending)
    (hitem : (.openSubmit, id) ∉ items) (ref : Option String) :
    Sound (pendings.set id { pending with brokerRef := ref }) index limits items pm := by
  have hid := h.keyed id pending hget
  have hclose := h.closes id pending hget
  have hopen := h.opens id pending hget
  have hknown : pendings.get? id ≠ none := by
    rw [hget]
    simp
  have hissued := h.issued id (.pending hknown)
  have hresting : id ∉ orderIds limits := fun hmem => hknown (h.resting id hmem).1
  subst hid
  exact setPending { pending with brokerRef := ref } h hresting hclose hopen
    (fun hmem => absurd hmem hitem) hissued

theorem eraseIndex (h : Sound pendings index limits items pm) (ref : String) :
    Sound pendings (index.erase ref) limits items pm := by
  have hold : ∀ r id, (index.erase ref).get? r = some id → index.get? r = some id := by
    intro r id hget
    by_cases hr : r = ref
    · rw [hr, Dict.get?_erase_self] at hget
      cases hget
    · rwa [Dict.get?_erase_ne _ hr] at hget
  refine ⟨h.keyed, h.closes, h.opens, ?_, h.nodup, h.resting, h.submits, fun k hk => ?_,
    h.closing, fun k hknown => h.issued k ?_⟩
  · by_contra hsome
    obtain ⟨id, hid⟩ := Option.ne_none_iff_exists'.mp hsome
    have hget := hold "" id hid
    rw [h.emptyRef] at hget
    cases hget
  · obtain ⟨hposition, hopen, hindex⟩ := h.submitted k hk
    exact ⟨hposition, hopen, fun r hget => hindex r (hold r k hget)⟩
  · cases hknown with
    | pending hget => exact .pending hget
    | indexed hget => exact .indexed (hold _ _ hget)
    | resting hmem => exact .resting hmem
    | traveling hkind hmem => exact .traveling hkind hmem
    | position hsome => exact .position hsome

theorem setIndex {ref id : String} (h : Sound pendings index limits items pm) (href : ref ≠ "")
    (hitem : (.openSubmit, id) ∉ items) (hissued : Issued pm.positionCounter id) :
    Sound pendings (index.set ref id) limits items pm := by
  have hcases : ∀ r k, (index.set ref id).get? r = some k →
      k = id ∨ index.get? r = some k := by
    intro r k hget
    by_cases hr : r = ref
    · rw [hr, Dict.get?_set_self] at hget
      exact .inl (Option.some.inj hget).symm
    · rw [Dict.get?_set_ne _ _ hr] at hget
      exact .inr hget
  refine ⟨h.keyed, h.closes, h.opens, ?_, h.nodup, h.resting, h.submits, fun k hk => ?_,
    h.closing, fun k hknown => ?_⟩
  · rw [Dict.get?_set_ne _ _ href.symm]
    exact h.emptyRef
  · obtain ⟨hposition, hopen, hindex⟩ := h.submitted k hk
    refine ⟨hposition, hopen, fun r hget => ?_⟩
    rcases hcases r k hget with rfl | hget
    · exact hitem hk
    · exact hindex r hget
  · cases hknown with
    | pending hget => exact h.issued k (.pending hget)
    | indexed hget =>
        rcases hcases _ k hget with rfl | hget
        · exact hissued
        · exact h.issued k (.indexed hget)
    | resting hmem => exact h.issued k (.resting hmem)
    | traveling hkind hmem => exact h.issued k (.traveling hkind hmem)
    | position hsome => exact h.issued k (.position hsome)

theorem cleared (h : Sound pendings index limits items pm) : Sound ∅ ∅ limits items pm where
  keyed k p hget := by cases hget
  closes k p hget := by cases hget
  opens k p hget := by cases hget
  emptyRef := rfl
  nodup := h.nodup
  resting id hid := ⟨rfl, (h.resting id hid).2⟩
  submits := h.submits
  submitted id hid := by
    refine ⟨(h.submitted id hid).1, fun p hget => ?_, fun ref hget => ?_⟩
    · cases hget
    · cases hget
  closing := h.closing
  issued id hknown := by
    apply h.issued id
    cases hknown with
    | pending hget => exact absurd rfl hget
    | indexed hget => cases hget
    | resting hmem => exact .resting hmem
    | traveling hkind hmem => exact .traveling hkind hmem
    | position hsome => exact .position hsome

end Sound

end Books

end Finiex.LiveBooks
