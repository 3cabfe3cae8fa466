import ScreenFlow.Design.Screen
import ScreenFlow.Flow.Document

/-!
# Routing

The routing model lists for every screen the screens it can lead to, screens that lead nowhere
included.
-/

namespace ScreenFlow.Compile

/-- The routing model of screens; one screen alone has none. -/
def routingModel (screens : List Design.Screen) : Option Flow.RoutingModel :=
  if screens.length ≤ 1 then none
  else some (Entries.ofMembers (screens.map fun s => (s.id, s.navigationTargets)))

end ScreenFlow.Compile
