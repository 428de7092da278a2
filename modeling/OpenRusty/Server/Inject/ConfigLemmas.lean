import OpenRusty.Server.Inject.Config

/-!
This module contains the listeners of the rendered configuration: they come before anything that an
annotation is copied into, so no annotation changes them.
-/

namespace OpenRusty

namespace Inject

theorem splitChar_line {sep : Char} {line rest : String} (h : sep ∉ line.toList)
    : splitChar sep (line ++ String.singleton sep ++ rest) = line :: splitChar sep rest := by
  have hfree : ∀ c ∈ line.toList, (c == sep) = false := by
    intro c hc
    rw [beq_eq_false_iff_ne]
    rintro rfl
    exact h hc
  unfold splitChar
  rw [String.toList_append, String.toList_append, String.toList_singleton, List.append_assoc,
    List.singleton_append, List.splitOn_eq_splitOnP]
  rw [List.splitOnP_append_cons_of_forall_mem hfree sep (by simp)]
  rw [List.map_cons, String.ofList_toList, List.splitOn_eq_splitOnP]

theorem splitChar_unlines {lines : List String} (h : ∀ line ∈ lines, '\n' ∉ line.toList) (rest : String)
    : splitChar '\n' (unlines lines ++ rest) = lines ++ splitChar '\n' rest := by
  induction lines with
  | nil => simp [unlines]
  | cons line lines ih =>
    have hsplit : unlines (line :: lines) ++ rest = line ++ String.singleton '\n' ++ (unlines lines ++ rest) := by
      rw [← String.toList_inj]
      simp [unlines, String.join_cons]
    rw [hsplit, splitChar_line (h line List.mem_cons_self), ih fun line' h' => h line' (List.mem_cons_of_mem _ h')]
    rfl

theorem newline_free {p : InjectParams} (h : p.logLevel ∈ logLevels)
    : ∀ line ∈ listenerLines p, '\n' ∉ line.toList := by
  have hlevel : '\n' ∉ p.logLevel.toList := by
    have hall : ∀ level ∈ logLevels, '\n' ∉ level.toList := by decide
    exact hall p.logLevel h
  have hmode : '\n' ∉ (egressModeStr p.egressMode).toList := by
    cases p.egressMode with
    | direct => decide
    | gateway => decide
    | deny => decide
  have hinbound : '\n' ∉ (toString inboundPort).toList := by decide
  have houtbound : '\n' ∉ (toString outboundPort).toList := by decide
  have hadmin : '\n' ∉ (toString adminPort).toList := by decide
  simp [listenerLines, pluginsDir, hlevel, hmode, hinbound, houtbound, hadmin]

section tablesOf

variable {header next : String} {body rest : List String}

theorem tablesOf_append (hbody : ∀ line ∈ body, isHeader line = false)
    : tablesOf (body ++ rest) = tablesOf rest := by
  induction body with
  | nil => rfl
  | cons line body ih =>
    rw [List.cons_append, tablesOf, hbody line List.mem_cons_self]
    exact ih fun line' h' => hbody line' (List.mem_cons_of_mem _ h')

theorem tablesOf_cons (hheader : isHeader header = true) (hbody : ∀ line ∈ body, isHeader line = false)
    (hnext : isHeader next = true)
    : tablesOf (header :: (body ++ next :: rest)) = (trim header, keysOf body) :: tablesOf (next :: rest) := by
  have hkeys : keysOf (body ++ next :: rest) = keysOf body := by
    unfold keysOf
    rw [List.takeWhile_append_of_pos, List.takeWhile_cons_of_neg, List.append_nil]
    . rw [List.takeWhile_eq_self_iff.mpr]
      intro line hline
      simp [hbody line hline]
    . simp [hnext]
    . intro line hline
      simp [hbody line hline]
  rw [tablesOf, if_pos hheader, hkeys, tablesOf_append hbody]

end tablesOf

section listeners

variable (p : InjectParams)

theorem isHeader_logLevel : isHeader ("log_level = \"" ++ p.logLevel ++ "\"") = false := by
  simp [isHeader, startsWith]
  rfl

def serverBody : List String :=
  ["listen = \"0.0.0.0:" ++ toString inboundPort ++ "\"", "log_level = \"" ++ p.logLevel ++ "\"", ""]

theorem serverBody_free : ∀ line ∈ serverBody p, isHeader line = false := by
  intro line hline
  simp only [serverBody, List.mem_cons, List.not_mem_nil, or_false] at hline
  rcases hline with rfl | rfl | rfl
  . decide
  . exact isHeader_logLevel p
  . decide

def inboundBody : List String :=
  ["role = \"inbound\"", "listen = \"0.0.0.0:" ++ toString inboundPort ++ "\"", "transparent = true", ""]

def outboundBody : List String :=
  ["role = \"outbound\"", "listen = \"0.0.0.0:" ++ toString outboundPort ++ "\"", "transparent = true", ""]

theorem listeners_configToml (rest : List String)
    : ∃ tables, (tablesOf (listenerLines p ++ rest)).filter (fun t => t.1 == "[[server.listeners]]")
        = ("[[server.listeners]]", keysOf inboundBody) :: ("[[server.listeners]]", keysOf outboundBody) :: tables := by
  have hlines : ∃ after, listenerLines p ++ rest
      = ["# Generated by `openrusty inject`; edit with care - the sidecar", "# restarts with this file verbatim."]
        ++ "[server]" :: (serverBody p ++ "[[server.listeners]]" :: (inboundBody
          ++ "[[server.listeners]]" :: (outboundBody ++ "[[server.listeners]]" :: after))) := ⟨_, rfl⟩
  rcases hlines with ⟨after, hlines⟩
  have hheader : isHeader "[[server.listeners]]" = true := by decide
  rw [hlines, tablesOf_append (by decide), tablesOf_cons (by decide) (serverBody_free p) hheader,
    tablesOf_cons hheader (by decide) hheader, tablesOf_cons hheader (by decide) hheader]
  refine ⟨(tablesOf ("[[server.listeners]]" :: after)).filter (fun t => t.1 == "[[server.listeners]]"), ?_⟩
  have hserver : (trim "[server]" == "[[server.listeners]]") = false := by decide
  have hlisteners : trim "[[server.listeners]]" = "[[server.listeners]]" := by decide
  simp [hserver, hlisteners]

variable {p} (h : p.logLevel ∈ logLevels)

include h

theorem listenPort_inbound : listenPort "inbound" (configToml p) = some inboundPort := by
  rcases listeners_configToml p (splitChar '\n' (gatewayLine p ++ appSection p ++ "[ingress]\nenabled = false\n"))
    with ⟨tables, htables⟩
  unfold listenPort configToml
  rw [String.append_assoc, String.append_assoc, splitChar_unlines (newline_free h), ← String.append_assoc]
  rw [htables]
  rfl

theorem listenPort_outbound : listenPort "outbound" (configToml p) = some outboundPort := by
  rcases listeners_configToml p (splitChar '\n' (gatewayLine p ++ appSection p ++ "[ingress]\nenabled = false\n"))
    with ⟨tables, htables⟩
  unfold listenPort configToml
  rw [String.append_assoc, String.append_assoc, splitChar_unlines (newline_free h), ← String.append_assoc]
  rw [htables]
  rfl

end listeners

end Inject

end OpenRusty
