import Comp4320.Lab2.RetryLoop

/-!
# A call of the client

What `execute` does for every list of names and for everything it may receive. Packing the request
raises an exception for a name that is not ASCII, for a name of more than 255 bytes, and for a
request whose length does not fit its field. The first of these is a `ValueError`, so the user is
told that the request id is not a number.

After that one datagram decides, the first of seven that either is a packet whose length field it
does not bear out or one that verifies. If it is the former, `struct.error` leaves the call; if the
latter, every four bytes of the payload are printed next to the name of their position, and an
`IndexError` leaves the call when there are more names.

## Main definitions

* `ClientUDP.decisive` — the datagram that decides
* `ClientUDP.listing` — what is printed of a payload

## Main results

* `ClientUDP.execute_eq` — what a call does
-/

namespace Comp4320

namespace Lab2

open ByteOrder LengthPrefix

namespace ClientUDP

variable {r : ℤ} {host payload : List UInt8} {hosts datagrams : List (List UInt8)} {e : PyError}

/-! ### Printing -/

/-- What is printed of a payload: the names with the addresses in their order, and an exception when
there are not enough of them. -/
def listing (hosts : List (List UInt8)) (payload : List UInt8) : List Line × Option PyError :=
  (List.zipWith (fun host a => .address host (inetNtoa a)) hosts (wordsOf payload),
    if 4 * hosts.length ≤ payload.length then none else some .indexError)

theorem printAddresses_eq_listing (hosts : List (List UInt8)) (payload : List UInt8) :
    printAddresses payload 0 hosts = listing hosts payload := by
  obtain ⟨rest, hrest, hpayload⟩ := exists_eq_flatMap_wordsOf payload
  have hiff : hosts.length ≤ payload.length / 4 ↔ 4 * hosts.length ≤ payload.length := by omega
  conv_lhs => rw [hpayload]
  rw [printAddresses_append _ hrest (Nat.zero_le _), List.drop_zero, Nat.zero_add, length_wordsOf,
    listing]
  simp only [hiff]

/-! ### The call -/

/-- The datagram that decides what a call does, cut to what `recvfrom` returns of it. -/
def decisive (datagrams : List (List UInt8)) : Option (List UInt8) :=
  ((datagrams.take 7).map (List.take 4096)).find? fun d => Malformed d ∨ Acceptable d

/-- What comes of the retry loop. -/
theorem result_eq (datagrams : List (List UInt8)) : (Retry.loop attempt 7 0 datagrams).result =
    match decisive datagrams with
    | none => .ok none
    | some d => if Malformed d then .error .structError else .ok (some (unpacked d)) := by
  have hdecides : Retry.decides attempt
      = (fun d => decide (Malformed d ∨ Acceptable d)) ∘ List.take 4096 := by
    funext d
    have hiff := attempt_eq_none_iff (List.length_take_le 4096 d)
    rw [attempt, List.take_take, Nat.min_self, ← attempt, ← Retry.decides_eq_false_iff] at hiff
    rw [Bool.eq_iff_iff, ← not_iff_not, Bool.not_eq_true, hiff]
    simp [not_or]
  rw [Retry.result_loop, hdecides, decisive, List.find?_map]
  cases hfind : (datagrams.take 7).find?
      ((fun d => decide (Malformed d ∨ Acceptable d)) ∘ List.take 4096) with
  | none => rfl
  | some d =>
    have hmax : (d.take 4096).length ≤ 4096 := List.length_take_le ..
    have hattempt : attempt d = attempt (d.take 4096) := by
      rw [attempt, attempt, List.take_take, Nat.min_self]
    rw [Option.elim_some, Option.map_some, hattempt]
    dsimp only
    split_ifs with hmal
    · exact attempt_of_malformed hmax hmal
    · have hdecides := List.find?_some hfind
      have hd : Malformed (d.take 4096) ∨ Acceptable (d.take 4096) := of_decide_eq_true hdecides
      exact attempt_of_acceptable hmax (hd.resolve_left hmal)

/-- A call whose request can be packed. -/
theorem execute_of_packed (hr : r > -1 ∧ r < 128) (h : requestError hosts = none) :
    execute (some r) hosts datagrams =
      match decisive datagrams with
      | none => ([], none)
      | some d =>
        if Malformed d then ([], some .structError) else listing hosts (unpacked d).ips := by
  obtain ⟨datagram, hpack⟩ := exists_getPackedMessage (by omega) hr.2 h
  have hresult : execute (some r) hosts datagrams =
      match (Retry.loop attempt 7 0 datagrams).result with
      | .ok (some response) => printAddresses response.ips 0 hosts
      | .ok none => ([], none)
      | .error e => handle e := by
    rw [execute, if_pos hr, hpack]
    dsimp only
    rw [getResponse_eq]
    cases Retry.loop attempt 7 0 datagrams <;> rfl
  rw [hresult, result_eq]
  cases decisive datagrams with
  | none => rfl
  | some d =>
    dsimp only
    split_ifs with hmal
    · rfl
    · exact printAddresses_eq_listing ..

/-- **What a call does**, whatever the names are and whatever it receives. -/
theorem execute_eq (hr : r > -1 ∧ r < 128) : execute (some r) hosts datagrams =
    match requestError hosts with
    | some e => handle e
    | none =>
      match decisive datagrams with
      | none => ([], none)
      | some d =>
        if Malformed d then ([], some .structError) else listing hosts (unpacked d).ips := by
  cases herror : requestError hosts with
  | some e => rw [execute, if_pos hr, getPackedMessage_eq_error herror]
  | none => exact execute_of_packed hr herror

/-- An error code, and then an answer that ends in the middle of its second address. -/
def twoDatagrams : List (List UInt8) :=
  [[0x4a, 0x6f, 0x79, 0x21, 0, 9, 7, 0, 1], Packet.stamped 5 [1, 2, 3, 4, 5, 6]]

theorem execute_eq_two_datagrams :
    (decisive twoDatagrams).map (fun d => (unpacked d).ips) = some [1, 2, 3, 4, 5, 6] ∧
    listing [[97], [98]] [1, 2, 3, 4, 5, 6] = ([.address [97] "1.2.3.4"], some .indexError) ∧
    execute (some 5) [[97], [98]] twoDatagrams =
      match requestError [[97], [98]] with
      | some e => handle e
      | none =>
        match decisive twoDatagrams with
        | none => ([], none)
        | some d =>
          if Malformed d then ([], some .structError) else listing [[97], [98]] (unpacked d).ips :=
  ⟨by decide +kernel, by decide +kernel, execute_eq (by decide)⟩

end ClientUDP

end Lab2

end Comp4320
