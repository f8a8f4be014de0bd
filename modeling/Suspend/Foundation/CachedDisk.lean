import Mathlib.Logic.Function.Basic
import Mathlib.Data.List.Basic
import Mathlib.Data.List.Induction

set_option autoImplicit false

/- A storage device with a volatile write cache: a log of writes and barriers, the content
it amounts to, and the contents that a loss of power may leave behind. -/
namespace Foundation.CachedDisk

variable {A : Type} {V : A → Type}

/-- One request. The type of what is stored may depend on where it is stored. -/
inductive Op (V : A → Type) where
  | write (address : A) (value : V address)
  | sync

namespace Op

def Touches (address : A) : Op V → Prop
  | write target _ => target = address
  | sync => False

@[simp] theorem touches_write (address target : A) (value : V target) :
    Touches address (write target value) ↔ target = address := Iff.rfl

@[simp] theorem not_touches_sync (address : A) : ¬ Touches address (sync : Op V) := id

variable [DecidableEq A]

def apply (disk : (address : A) → V address) : Op V → (address : A) → V address
  | write address value => Function.update disk address value
  | sync => disk

theorem apply_untouched (disk : (address : A) → V address) (op : Op V) {address : A}
    (untouched : ¬ op.Touches address) : op.apply disk address = disk address := by
  cases op with
  | write target value => exact Function.update_of_ne (fun same => untouched same.symm) _ _
  | sync => rfl

end Op

variable [DecidableEq A]

/-- What is read back after all requests of the log. -/
def content (disk : (address : A) → V address) (log : List (Op V)) : (address : A) → V address :=
  log.foldl Op.apply disk

@[simp] theorem content_nil (disk : (address : A) → V address) : content disk [] = disk := rfl

@[simp] theorem content_cons (disk : (address : A) → V address) (op : Op V)
    (log : List (Op V)) : content disk (op :: log) = content (op.apply disk) log := rfl

theorem content_append (disk : (address : A) → V address) (first second : List (Op V)) :
    content disk (first ++ second) = content (content disk first) second :=
  List.foldl_append

theorem content_write (disk : (address : A) → V address) (log : List (Op V)) (address : A)
    (value : V address) :
    content disk (log ++ [.write address value]) address = value := by
  rw [content_append, content_cons, content_nil]
  exact Function.update_self ..

theorem content_untouched (disk : (address : A) → V address) (log : List (Op V)) {address : A}
    (untouched : ∀ op ∈ log, ¬ op.Touches address) :
    content disk log address = disk address := by
  induction log generalizing disk with
  | nil => rfl
  | cons op rest ih =>
      rw [content_cons, ih _ fun later member => untouched later (by simp [member])]
      exact op.apply_untouched disk (untouched op (by simp))

/-- The write that is the last one to its address is the one that is read back. -/
theorem content_last_write (disk : (address : A) → V address) (before after : List (Op V))
    (address : A) (value : V address) (last : ∀ op ∈ after, ¬ op.Touches address) :
    content disk (before ++ .write address value :: after) address = value := by
  rw [List.append_cons, content_append, content_untouched _ _ last, content_write]

/-- Power is lost after the requests of `log`: everything before the last barrier is on the
disk, and any of the writes issued after it. -/
structure Crash (disk : (address : A) → V address) (log : List (Op V))
    (left : (address : A) → V address) (settled recent survived : List (Op V)) : Prop where
  split : log = settled ++ recent
  barrier : settled = [] ∨ settled.getLast? = some .sync
  unsynced : .sync ∉ recent
  subset : survived.Sublist recent
  content : left = content disk (settled ++ survived)

/-- The contents a loss of power after `log` may leave on the disk. -/
def MayLeave (disk : (address : A) → V address) (log : List (Op V))
    (left : (address : A) → V address) : Prop :=
  ∃ settled recent survived, Crash disk log left settled recent survived

/-- A loss of power may come after everything has reached the disk. -/
theorem crash_content (disk : (address : A) → V address) (log : List (Op V)) :
    ∃ settled recent, Crash disk log (content disk log) settled recent recent := by
  induction log using List.reverseRecOn with
  | nil => exact ⟨[], [], rfl, .inl rfl, List.not_mem_nil, List.Sublist.refl [], rfl⟩
  | append_singleton log op ih =>
      obtain ⟨settled, recent, crash⟩ := ih
      cases op with
      | write address value =>
          refine ⟨settled, recent ++ [.write address value], ?_, crash.barrier, ?_,
            List.Sublist.refl _, ?_⟩
          · rw [crash.split, List.append_assoc]
          · simpa using crash.unsynced
          · rw [crash.split, List.append_assoc]
      | sync =>
          exact ⟨log ++ [.sync], [], (List.append_nil _).symm, .inr (by simp), List.not_mem_nil,
            List.Sublist.refl [], by rw [List.append_nil]⟩

/-- One more request changes what a loss of power may leave by its own effect at most. -/
theorem MayLeave.snoc {disk left : (address : A) → V address} {log : List (Op V)} {op : Op V}
    (lost : MayLeave disk (log ++ [op]) left) :
    ∃ before, MayLeave disk log before ∧ (left = before ∨ left = op.apply before) := by
  obtain ⟨settled, recent, survived, crash⟩ := lost
  rcases List.eq_nil_or_concat recent with rfl | ⟨earlier, last, rfl⟩
  · have all : log ++ [op] = settled := by simpa using crash.split
    have isSync : op = .sync := by
      rcases crash.barrier with none | last
      · exact absurd (all.trans none) (by simp)
      · rw [← all] at last
        simpa using last
    have gone : survived = [] := List.sublist_nil.mp crash.subset
    obtain ⟨settledBefore, recentBefore, before⟩ := crash_content disk log
    refine ⟨content disk log, ⟨_, _, _, before⟩, .inl ?_⟩
    rw [crash.content, gone, List.append_nil, ← all, isSync, content_append]
    rfl
  · have split : log = settled ++ earlier ∧ op = last := by
      have same := crash.split
      rw [List.concat_eq_append, ← List.append_assoc] at same
      exact List.append_inj' same rfl |>.imp_right (List.cons.inj · |>.1)
    obtain ⟨rfl, rfl⟩ := split
    have subset := crash.subset
    rw [List.concat_eq_append] at subset
    obtain ⟨kept, tail, rfl, keptSubset, tailSubset⟩ := List.sublist_append_iff.mp subset
    have unsynced : .sync ∉ earlier := fun member => crash.unsynced (by simp [member])
    refine ⟨content disk (settled ++ kept),
      ⟨settled, earlier, kept, rfl, crash.barrier, unsynced, keptSubset, rfl⟩, ?_⟩
    rcases List.sublist_singleton.mp tailSubset with rfl | rfl
    · left
      rw [crash.content, List.append_nil]
    · right
      rw [crash.content, ← List.append_assoc, content_append]
      rfl

theorem MayLeave.nothing {disk left : (address : A) → V address}
    (lost : MayLeave disk [] left) : left = disk := by
  obtain ⟨settled, recent, survived, crash⟩ := lost
  obtain ⟨rfl, rfl⟩ := List.append_eq_nil_iff.mp crash.split.symm
  rw [crash.content, List.sublist_nil.mp crash.subset]
  rfl

/-- Whatever is left at an address was there before or has been written there. -/
theorem MayLeave.origin {disk left : (address : A) → V address} {log : List (Op V)}
    (lost : MayLeave disk log left) (address : A) :
    left address = disk address ∨
      ∃ value, .write address value ∈ log ∧ left address = value := by
  induction log using List.reverseRecOn generalizing left with
  | nil => exact .inl (congrFun lost.nothing address)
  | append_singleton log op ih =>
      obtain ⟨before, first, effect⟩ := lost.snoc
      by_cases same : left address = before address
      · rw [same]
        refine (ih first).imp_right fun ⟨value, member, found⟩ => ?_
        exact ⟨value, List.mem_append_left _ member, found⟩
      · right
        cases op with
        | sync => exact absurd (effect.elim (congrFun · address) (congrFun · address)) same
        | write target value =>
            rcases effect with unchanged | written
            · exact absurd (congrFun unchanged address) same
            · have here : target = address := by
                by_contra elsewhere
                exact same ((congrFun written address).trans
                  (Function.update_of_ne (Ne.symm elsewhere) value before))
              subst here
              refine ⟨value, by simp, ?_⟩
              rw [written]
              exact Function.update_self target value before

theorem MayLeave.frame {disk left : (address : A) → V address} {log more : List (Op V)}
    (lost : MayLeave disk (log ++ more) left) {address : A}
    (untouched : ∀ op ∈ more, ¬ op.Touches address) :
    ∃ before, MayLeave disk log before ∧ left address = before address := by
  induction more using List.reverseRecOn generalizing left with
  | nil => exact ⟨left, by simpa using lost, rfl⟩
  | append_singleton more op ih =>
      rw [← List.append_assoc] at lost
      obtain ⟨middle, earlier, effect⟩ := lost.snoc
      obtain ⟨before, first, same⟩ := ih earlier fun op member => untouched op (by simp [member])
      refine ⟨before, first, ?_⟩
      rcases effect with rfl | rfl
      · exact same
      · rw [op.apply_untouched middle (untouched op (by simp)), same]

/-- The barrier rule: what was written before a barrier and not again after it is there. -/
theorem MayLeave.synced {disk left : (address : A) → V address} {early late : List (Op V)}
    (lost : MayLeave disk (early ++ .sync :: late) left) {address : A}
    (untouched : ∀ op ∈ late, ¬ op.Touches address) :
    left address = content disk early address := by
  obtain ⟨settled, recent, survived, crash⟩ := lost
  -- the last barrier is the given one or a later one, so `settled` extends `early`
  have extends_early : ∃ more, settled = early ++ .sync :: more ∧ late = more ++ recent := by
    rcases List.append_eq_append_iff.mp crash.split with
      ⟨more, hsettled, hlate⟩ | ⟨more, hearly, hrecent⟩
    · cases more with
      | nil =>
          rw [List.nil_append] at hlate
          exact absurd (hlate ▸ List.mem_cons_self) crash.unsynced
      | cons op more =>
          rw [List.cons_append, List.cons.injEq] at hlate
          exact ⟨more, by rw [hsettled, ← hlate.1], hlate.2⟩
    · exact absurd (hrecent ▸ List.mem_append_right more List.mem_cons_self) crash.unsynced
  obtain ⟨more, rfl, rfl⟩ := extends_early
  rw [crash.content, List.append_assoc, content_append]
  apply content_untouched
  intro op member
  simp only [List.cons_append, List.mem_cons, List.mem_append] at member
  rcases member with rfl | between | after
  · exact Op.not_touches_sync address
  · exact untouched op (List.mem_append_left _ between)
  · exact untouched op (List.mem_append_right _ (crash.subset.subset after))

end Foundation.CachedDisk
