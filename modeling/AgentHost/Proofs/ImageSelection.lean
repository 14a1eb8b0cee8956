import AgentHost.Proofs.TurnResult

namespace AgentHost

namespace Image

def firsts (images : List Image) : List Image :=
  images.eraseDupsBy fun image other => image.key == other.key

def selection (cap : Nat) (images : List Image) : List Image := (firsts images).take cap

theorem firsts_cons (image : Image) (rest : List Image) :
    firsts (image :: rest) = image :: firsts (rest.filter (·.key ≠ image.key)) := by
  rw [firsts, List.eraseDupsBy_cons]
  simp [firsts]

theorem firsts_induction {motive : List Image → Prop} (nil : motive [])
    (cons : ∀ image rest, motive (rest.filter (·.key ≠ image.key)) → motive (image :: rest)) :
    ∀ images, motive images
  | [] => nil
  | image :: rest => cons image rest (firsts_induction nil cons _)
termination_by images => images.length
decreasing_by exact Nat.lt_succ_of_le (List.length_filter_le _ rest)

theorem firsts_sublist (images : List Image) : (firsts images).Sublist images := by
  induction images using firsts_induction with
  | nil => exact List.nil_sublist _
  | cons image rest ih =>
    rw [firsts_cons]
    exact (ih.trans List.filter_sublist).cons_cons image

theorem firsts_nodup (images : List Image) : ((firsts images).map key).Nodup := by
  induction images using firsts_induction with
  | nil => exact .nil
  | cons image rest ih =>
    rw [firsts_cons, List.map_cons, List.nodup_cons]
    refine ⟨fun again => ?_, ih⟩
    obtain ⟨other, member, same⟩ := List.mem_map.mp again
    have differs := (List.mem_filter.mp ((firsts_sublist _).subset member)).2
    simp [same] at differs

theorem key_mem_firsts {images : List Image} {image : Image} (member : image ∈ images) :
    image.key ∈ (firsts images).map key := by
  induction images using firsts_induction with
  | nil => contradiction
  | cons first rest ih =>
    rw [firsts_cons, List.map_cons, List.mem_cons]
    rcases List.mem_cons.mp member with rfl | later
    · exact .inl rfl
    · by_cases same : image.key = first.key
      · exact .inl same
      · exact .inr (ih (List.mem_filter.mpr ⟨later, by simpa using same⟩))

theorem find?_of_mem_firsts {images : List Image} {image : Image} (member : image ∈ firsts images) :
    images.find? (·.key = image.key) = some image := by
  induction images using firsts_induction with
  | nil => contradiction
  | cons first rest ih =>
    rw [firsts_cons, List.mem_cons] at member
    rcases member with rfl | later
    · simp
    · have other : image.key ≠ first.key := by
        simpa using (List.mem_filter.mp ((firsts_sublist _).subset later)).2
      rw [List.find?_cons_of_neg (by simpa using other.symm), ← ih later, List.find?_filter]
      -- the images filtered out have another key, so the search is not affected
      congr 1
      funext next
      by_cases same : next.key = image.key <;> simp [same, other]

/-- What a turn shows of the images it is offered: the first one with each key, in order, up to the
    cap. -/
structure Selected (cap : Nat) (offered told : List Image) : Prop where
  order : told.Sublist offered
  distinct : (told.map key).Nodup
  bound : told.length ≤ cap
  first : ∀ image ∈ told, offered.find? (·.key = image.key) = some image
  complete : ∀ image ∈ offered, image.key ∈ told.map key ∨ told.length = cap

theorem selection_selected (cap : Nat) (images : List Image) :
    Selected cap images (selection cap images) where
  order := (List.take_sublist _ _).trans (firsts_sublist images)
  distinct := (firsts_nodup images).sublist ((List.take_sublist _ _).map key)
  bound := List.length_take_le _ _
  first image told := find?_of_mem_firsts (List.mem_of_mem_take told)
  complete image offered := by
    rcases Nat.le_total (firsts images).length cap with within | more
    · left
      rw [selection, List.take_of_length_le within]
      exact key_mem_firsts offered
    · exact .inr (List.length_take_of_le more)

end Image

namespace ImageFilter

open Image (firsts selection)

theorem offer_seen {filter : ImageFilter} {image : Image} (seen : image.key ∈ filter.seen) :
    filter.offer image = (false, filter) := by simp [offer, admits, seen]

theorem offer_full {filter : ImageFilter} (full : filter.cap ≤ filter.seen.length) (image : Image) :
    filter.offer image = (false, filter) := by simp [offer, admits, full.not_gt]

theorem offer_new {filter : ImageFilter} {image : Image} (unseen : image.key ∉ filter.seen)
    (room : filter.seen.length < filter.cap) :
    filter.offer image = (true, { filter with seen := image.key :: filter.seen }) := by
  simp [offer, admits, unseen, room]

theorem passing_append (filter : ImageFilter) (images rest : List Image) :
    filter.passing (images ++ rest) =
      filter.passing images ++ (filter.after images).passing rest := by
  induction images generalizing filter with
  | nil => rfl
  | cons image images ih =>
    rw [List.cons_append, passing_cons, passing_cons, ih, List.append_assoc]
    rfl

theorem after_cons (filter : ImageFilter) (image : Image) (rest : List Image) :
    filter.after (image :: rest) = (filter.offer image).2.after rest := rfl

/-- The state of a filter depends only on the images that have passed. -/
theorem after_eq (filter : ImageFilter) (images : List Image) : filter.after images =
    { filter with seen := ((filter.passing images).map Image.key).reverse ++ filter.seen } := by
  induction images generalizing filter with
  | nil => rfl
  | cons image rest ih =>
    rw [after_cons, ih, passing_cons]
    by_cases seen : image.key ∈ filter.seen
    · rw [offer_seen seen]
      rfl
    · by_cases room : filter.seen.length < filter.cap
      · rw [offer_new seen room]
        simp
      · rw [offer_full (Nat.not_lt.mp room)]
        rfl

/-- A filter selects among the images whose keys it has not seen, as long as it has room. -/
theorem passing_eq (filter : ImageFilter) (images : List Image) : filter.passing images =
    selection (filter.cap - filter.seen.length) (images.filter (·.key ∉ filter.seen)) := by
  induction images generalizing filter with
  | nil => simp [passing, selection, firsts, List.eraseDupsBy_nil]
  | cons image rest ih =>
    rw [passing_cons, ih]
    by_cases seen : image.key ∈ filter.seen
    · rw [offer_seen seen, List.filter_cons_of_neg (by simpa using seen)]
      rfl
    · by_cases room : filter.seen.length < filter.cap
      · have others : rest.filter (·.key ∉ image.key :: filter.seen) =
            (rest.filter (·.key ∉ filter.seen)).filter (·.key ≠ image.key) := by
          rw [List.filter_filter]
          apply List.filter_congr
          intro other _
          simp
        have left : filter.cap - filter.seen.length =
            filter.cap - (filter.seen.length + 1) + 1 := by omega
        rw [offer_new seen room, List.filter_cons_of_pos (by simpa using seen), selection, selection,
          Image.firsts_cons, left, List.take_succ_cons, others]
        rfl
      · have full := Nat.not_lt.mp room
        rw [offer_full full, Nat.sub_eq_zero_of_le full]
        simp [selection]

theorem passing_fresh (cap : Nat) (images : List Image) :
    passing { cap } images = selection cap images := by
  rw [passing_eq]
  simp

theorem decisions_of_passing {filter : ImageFilter} {before others : List Image}
    (same : filter.passing before = filter.passing others) (rest : List Image) :
    (filter.after before).offerAll rest = (filter.after others).offerAll rest := by
  rw [after_eq, after_eq, same]

end ImageFilter

end AgentHost
