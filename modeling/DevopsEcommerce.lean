import DevopsEcommerce.CartService.Checkout
import DevopsEcommerce.CartService.Isolation
import DevopsEcommerce.CartService.Lifetimes
import DevopsEcommerce.CartService.PositiveQuantities
import DevopsEcommerce.CartService.Router
import DevopsEcommerce.CartService.SerialShop
import DevopsEcommerce.CartService.StoredValues
import DevopsEcommerce.NotificationWorker.Health
import DevopsEcommerce.NotificationWorker.History
import DevopsEcommerce.NotificationWorker.Inbox
import DevopsEcommerce.NotificationWorker.Redelivery
import DevopsEcommerce.NotificationWorker.SetUps
import DevopsEcommerce.OrderClients.CheckoutSystem
import DevopsEcommerce.OrderClients.NamelessProducts
import DevopsEcommerce.OrderMessaging.Accounting
import DevopsEcommerce.OrderMessaging.Notifications
import DevopsEcommerce.OrderService.Cancellation
import DevopsEcommerce.OrderService.Creation
import DevopsEcommerce.OrderService.History
import DevopsEcommerce.OrderService.Progress
import DevopsEcommerce.ProductService.CataloguePages
import DevopsEcommerce.ProductService.PunctualReads
import DevopsEcommerce.ProductService.RedisTrouble
import DevopsEcommerce.ProductService.Seeding
import DevopsEcommerce.ProductService.Staleness
import DevopsEcommerce.ProductService.StockConservation
import DevopsEcommerce.ReviewService.Board
import DevopsEcommerce.ReviewService.Conservation
import DevopsEcommerce.ReviewService.Pages
import DevopsEcommerce.ReviewService.Statistics
import DevopsEcommerce.ReviewService.Uniqueness
import DevopsEcommerce.UserService.OwnRecord
import DevopsEcommerce.UserService.Registrations
import DevopsEcommerce.UserService.SerialRegistry
