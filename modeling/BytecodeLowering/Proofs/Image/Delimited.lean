import BytecodeLowering.Proofs.Image.InRange

/-!
# An image ends where its own bytes say

Reading depends on a prefix of the bytes only.  Every shorter prefix is
refused for want of bytes, so a truncated image is never taken for another
one, and every error points into the bytes that were given.
-/

namespace BytecodeLowering.Image

open Reader (Agree)

variable {bytes : Bytes} {image : Image} {error : DecodeError}

theorem decode_agree (bytes more : Bytes) :
    Agree more bytes.length (Reader.image { rest := bytes })
      (Reader.image { rest := bytes ++ more }) := by
  have hsteady := Reader.steady_image { rest := bytes } more
  rwa [Cursor.limit, Cursor.remaining, Nat.zero_add] at hsteady

theorem decode_append (more : Bytes) (h : decode bytes = .ok image) :
    decode (bytes ++ more) = .ok image := by
  have hagree := decode_agree bytes more
  unfold decode at h ⊢
  generalize Reader.image { rest := bytes ++ more } = other at hagree ⊢
  cases hrun : Reader.image { rest := bytes } with
  | ok value after =>
      rw [hrun] at hagree h
      cases hagree
      exact h
  | error fault after =>
      rw [hrun] at h
      cases h

theorem decode_append_of_error (more : Bytes) (h : decode bytes = .error error) :
    error.offset ≤ bytes.length ∧
      (error.fault.isShortage = true ∨ decode (bytes ++ more) = .error error) := by
  have hagree := decode_agree bytes more
  unfold decode at h ⊢
  generalize Reader.image { rest := bytes ++ more } = other at hagree ⊢
  cases hrun : Reader.image { rest := bytes } with
  | ok value after =>
      rw [hrun] at h
      cases h
  | error fault after =>
      rw [hrun] at hagree h
      cases h
      cases hagree with
      | shortage hshort hoffset => exact ⟨hoffset, .inl hshort⟩
      | fault hoffset => exact ⟨hoffset, .inr rfl⟩

theorem decode_take (h : decode bytes = .ok image) (k : Nat) :
    decode (bytes.take k) = .ok image ∨
      ∃ error, decode (bytes.take k) = .error error ∧ error.fault.isShortage = true := by
  have hwhole : decode (bytes.take k ++ bytes.drop k) = .ok image := by
    rwa [List.take_append_drop]
  cases hshort : decode (bytes.take k) with
  | ok other =>
      have hother := decode_append (bytes.drop k) hshort
      rw [hwhole] at hother
      exact .inl hother.symm
  | error error =>
      obtain ⟨-, hfault | hsame⟩ := decode_append_of_error (bytes.drop k) hshort
      · exact .inr ⟨error, rfl, hfault⟩
      · rw [hwhole] at hsame
        cases hsame

theorem exists_shortest (length : Nat)
    (hlength : decode (bytes.take length) = .ok image) :
    ∃ n ≤ length, decode (bytes.take n) = .ok image ∧
      ∀ k < n, decode (bytes.take k) ≠ .ok image := by
  induction length using Nat.strongRecOn with
  | ind length ih =>
      by_cases hshorter : ∃ k < length, decode (bytes.take k) = .ok image
      · obtain ⟨k, hlt, hk⟩ := hshorter
        obtain ⟨n, hle, hn⟩ := ih k hlt hk
        exact ⟨n, Nat.le_trans hle (Nat.le_of_lt hlt), hn⟩
      · exact ⟨length, Nat.le_refl _, hlength, fun k hlt hk => hshorter ⟨k, hlt, hk⟩⟩

theorem decode_delimited (bytes : Bytes) :
    (∀ image, decode bytes = .ok image →
      ∃ n ≤ bytes.length, (∀ more, decode (bytes.take n ++ more) = .ok image) ∧
        ∀ k < n, ∃ error, decode (bytes.take k) = .error error ∧
          error.fault.isShortage = true) ∧
    ∀ error, decode bytes = .error error → error.offset ≤ bytes.length := by
  constructor
  · intro image h
    have hwhole : decode (bytes.take bytes.length) = .ok image := by rwa [List.take_length]
    obtain ⟨n, hle, hn, hshortest⟩ := exists_shortest bytes.length hwhole
    refine ⟨n, hle, fun more => decode_append more hn, fun k hlt => ?_⟩
    exact (decode_take h k).resolve_left (hshortest k hlt)
  · intro error h
    exact (decode_append_of_error [] h).1

theorem decode_delimited_damaged :
    (∃ image, decode damaged = .ok image ∧
      ∃ n ≤ damaged.length, (∀ more, decode (damaged.take n ++ more) = .ok image) ∧
        ∀ k < n, ∃ error, decode (damaged.take k) = .error error ∧
          error.fault.isShortage = true) ∧
    ∃ error, decode (damaged.take 40) = .error error ∧ error.offset ≤ 40 := by
  have hread : (decode damaged).isOk = true := by decide +kernel
  have hcut : (decode (damaged.take 40)).isOk = false := by decide +kernel
  constructor
  · cases h : decode damaged with
    | error error =>
        rw [h] at hread
        cases hread
    | ok image => exact ⟨image, rfl, (decode_delimited damaged).1 image h⟩
  · cases h : decode (damaged.take 40) with
    | error error => exact ⟨error, rfl, (decode_delimited (damaged.take 40)).2 error h⟩
    | ok image =>
        rw [h] at hcut
        cases hcut

end BytecodeLowering.Image
